import SolidScript.Part.Primitive
import SolidScript.Proofs.Script.Grammar
import SolidScript.Proofs.Script.Unwritable
import SolidScript.Settings.Document

/-!
# Well-formed scripts

A script has at most one line for each special variable, in order, then a statement for the part
and a line feed (`Part.IsScript`). The lines of a script can be told from each other and from the
statement (`linesChars_append_inj`), so a rendered text is a script exactly if its settings are
finite numbers (`Settings.render_wellFormed`). Rendering does not look at the settings for that: it
fails when the part has no text, and only then.
-/

namespace SolidScript

open SolidScript.Part Script Text Number

theorem Script.isToken_of_isDecimal {text : List Char} (h : IsDecimal text) : IsToken text := by
  refine ⟨?_, fun c hc => ?_⟩
  · rintro rfl
    generalize hnil : ([] : List Char) = text at h
    cases h with
    | whole _ hdigits => exact hdigits.1 (List.append_eq_nil_iff.mp hnil.symm).2
    | point => simp at hnil
  · rcases h.of_mem hc with rfl | rfl | hdigit
    · decide
    · decide
    · simp [isTokenChar, isWordRest, Char.isAlphanum, hdigit]

/-! ## Lines -/

/-- The line that sets a special variable, if it is set. -/
def settingChars (name : List Char) : Option (List Char) → List Char
  | some number => '$' :: (name ++ '=' :: (number ++ [';', '\n']))
  | none => []

/-- A text goes on as a line that sets the variable. -/
def Sets (name text : List Char) : Prop := '$' :: (name ++ ['=']) <+: text

theorem not_sets_settingChars {name other : List Char} (hne : name ≠ other)
    (hlength : name.length = other.length) (value : Option (List Char)) {rest : List Char}
    (h : ¬Sets name rest) : ¬Sets name (settingChars other value ++ rest) := by
  cases value with
  | none => exact h
  | some number =>
    rintro ⟨more, hmore⟩
    have htail := (List.cons.inj hmore).2
    rw [List.append_eq, List.append_eq, List.append_assoc, List.append_assoc] at htail
    exact hne (List.append_inj htail hlength).1

/-- A line and what it sets the variable to can be told from what follows. -/
theorem settingChars_append_inj {name : List Char} {first second : Option (List Char)}
    (hfirst : ∀ number ∈ first, IsToken number) (hsecond : ∀ number ∈ second, IsToken number)
    {r s : List Char} (hr : ¬Sets name r) (hs : ¬Sets name s)
    (h : settingChars name first ++ r = settingChars name second ++ s) :
    first = second ∧ r = s := by
  have hsets : ∀ (number rest : List Char),
      Sets name (settingChars name (some number) ++ rest) := by
    intro number rest
    exact ⟨number ++ [';', '\n'] ++ rest, by simp [settingChars]⟩
  cases first with
  | none =>
    cases second with
    | none => exact ⟨rfl, h⟩
    | some number =>
      have hrest : r = settingChars name (some number) ++ s := h
      exact absurd (hrest ▸ hsets number s) hr
  | some number =>
    cases second with
    | none =>
      have hrest : settingChars name (some number) ++ r = s := h
      exact absurd (hrest ▸ hsets number r) hs
    | some other =>
      have hend : ∀ rest : List Char,
          Begins (fun c => ¬isTokenChar c) (';' :: '\n' :: rest) := fun rest =>
        ⟨';', '\n' :: rest, rfl, by decide⟩
      have htail : number ++ (';' :: '\n' :: r) = other ++ (';' :: '\n' :: s) := by
        simpa [settingChars] using h
      obtain ⟨rfl, hrest⟩ := token_append_inj (hfirst number rfl) (hsecond other rfl) (hend r)
        (hend s) htail
      exact ⟨rfl, by simpa using hrest⟩

def linesChars (entries : List (List Char × Option (List Char))) : List Char :=
  entries.flatMap fun entry => settingChars entry.1 entry.2

theorem not_sets_linesChars {name : List Char} {entries : List (List Char × Option (List Char))}
    (hother : ∀ other ∈ entries.map Prod.fst, name ≠ other ∧ name.length = other.length)
    {rest : List Char} (h : ¬Sets name rest) : ¬Sets name (linesChars entries ++ rest) := by
  induction entries with
  | nil => exact h
  | cons entry entries ih =>
    obtain ⟨⟨hne, hlength⟩, hothers⟩ := List.forall_mem_cons.mp hother
    rw [linesChars, List.flatMap_cons, List.append_assoc]
    exact not_sets_settingChars hne hlength entry.2 (ih hothers)

/-- Lines for different variables can be told from each other and from what follows. -/
theorem linesChars_append_inj {first second : List (List Char × Option (List Char))}
    (hnames : first.map Prod.fst = second.map Prod.fst)
    (hapart : (first.map Prod.fst).Pairwise fun name other =>
      name ≠ other ∧ name.length = other.length)
    (hfirst : ∀ entry ∈ first, ∀ number ∈ entry.2, IsToken number)
    (hsecond : ∀ entry ∈ second, ∀ number ∈ entry.2, IsToken number) {r s : List Char}
    (hr : ∀ entry ∈ first, ¬Sets entry.1 r) (hs : ∀ entry ∈ second, ¬Sets entry.1 s)
    (h : linesChars first ++ r = linesChars second ++ s) : first = second ∧ r = s := by
  induction first generalizing second with
  | nil =>
    rw [List.map_eq_nil_iff.mp hnames.symm] at h ⊢
    exact ⟨rfl, h⟩
  | cons entry first ih =>
    obtain ⟨other, others, rfl, hname, hothers⟩ := List.map_eq_cons_iff.mp hnames.symm
    obtain ⟨name, value⟩ := entry
    obtain ⟨name', value'⟩ := other
    obtain rfl : name' = name := hname
    obtain ⟨hother, hrest⟩ := List.pairwise_cons.mp hapart
    obtain ⟨hvalue, hvalues⟩ := List.forall_mem_cons.mp hfirst
    obtain ⟨hvalue', hvalues'⟩ := List.forall_mem_cons.mp hsecond
    obtain ⟨hnot, hnots⟩ := List.forall_mem_cons.mp hr
    obtain ⟨hnot', hnots'⟩ := List.forall_mem_cons.mp hs
    simp only [linesChars, List.flatMap_cons, List.append_assoc] at h
    -- The lines after this one set other variables, so they tell where it ends.
    obtain ⟨rfl, htail⟩ := settingChars_append_inj hvalue hvalue' (not_sets_linesChars hother hnot)
      (not_sets_linesChars (hothers ▸ hother) hnot') h
    obtain ⟨rfl, heq⟩ := ih hothers.symm hrest hvalues hvalues' hnots hnots' htail
    exact ⟨rfl, heq⟩

/-- No statement begins like a line: a glyph begins it, or the name of a module with a parenthesis
after it. -/
theorem Part.Spelled.not_sets {part : Part Float} {statement : List Char}
    (h : part.Spelled statement) {name : List Char} (hname : IsToken ('$' :: name))
    (more : List Char) : ¬Sets name (statement ++ more) := by
  rintro ⟨rest, hrest⟩
  obtain ⟨hbefore, -⟩ := h
  cases hbefore with
  | glyph _ hc _ =>
    obtain ⟨rfl, -⟩ := List.cons.inj hrest
    exact absurd hc (by decide)
  | call _ hmodule _ _ =>
    have hsame : ∃ text, '$' :: name ++ '=' :: rest = part.head.kind.name.toList ++ '(' :: text :=
      ⟨_, by simpa only [List.append_assoc, List.cons_append, List.nil_append] using hrest⟩
    obtain ⟨text, hsame⟩ := hsame
    obtain ⟨-, htail⟩ := token_append_inj hname (isToken_of_isIdentifier hmodule)
      ⟨'=', rest, rfl, by decide⟩ ⟨'(', text, rfl, by decide⟩ hsame
    exact absurd (List.cons.inj htail).1 (by decide)

/-! ## Scripts -/

/-- What the special variables are set to, as far as they are. -/
structure Lines where
  angle : Option (List Char)
  size : Option (List Char)
  count : Option (List Char)

namespace Lines

def entries (lines : Lines) : List (List Char × Option (List Char)) :=
  [("fa".toList, lines.angle), ("fs".toList, lines.size), ("fn".toList, lines.count)]

/-- Whatever is set is set to a text of some form. -/
def All (form : List Char → Prop) (lines : Lines) : Prop :=
  ∀ entry ∈ lines.entries, ∀ number ∈ entry.2, form number

theorem all_iff {form : List Char → Prop} {lines : Lines} :
    lines.All form ↔ (∀ number ∈ lines.angle, form number) ∧
      (∀ number ∈ lines.size, form number) ∧ ∀ number ∈ lines.count, form number := by
  simp only [All, entries, List.forall_mem_cons, List.not_mem_nil, false_imp_iff, implies_true,
    and_true]

theorem pairwise_entries (lines : Lines) : (lines.entries.map Prod.fst).Pairwise fun name other =>
    name ≠ other ∧ name.length = other.length := by
  simp [entries]

end Lines

/-- A text is a script for a part: lines that set special variables to decimal literals, a
statement for the part, and a line feed. It is a script at all if it is one for some part. -/
def Part.IsScript (part : Part Float) (text : String) : Prop :=
  ∃ (lines : Lines) (statement : List Char), lines.All IsDecimal ∧ part.Spelled statement ∧
    text.toList = linesChars lines.entries ++ (statement ++ ['\n'])

namespace Settings

/-- The settings as they are written before a model. -/
def lines (settings : Settings) : Lines where
  angle := settings.fragmentAngle.map fun angle => (literal angle).toList
  size := settings.fragmentSize.map fun size => (literal size).toList
  count := settings.fragmentCount.map fun count => (countText count).toList

structure IsFinite (settings : Settings) : Prop where
  angle : ∀ angle ∈ settings.fragmentAngle, angle.isFinite
  size : ∀ size ∈ settings.fragmentSize, size.isFinite

theorem toList_setting {α : Type} (name : String) (f : α → String) (value : Option α) :
    (setting name (value.map f)).toList =
      settingChars name.toList (value.map fun a => (f a).toList) := by
  cases value with
  | none => rfl
  | some a => simp [setting, settingChars]

theorem toList_preamble (settings : Settings) :
    settings.preamble.toList = linesChars settings.lines.entries := by
  rw [preamble, String.toList_append, String.toList_append, toList_setting, toList_setting,
    toList_setting]
  simp [linesChars, Lines.entries, lines]

theorem toList_around (settings : Settings) (model : String) :
    (settings.around model).toList =
      linesChars settings.lines.entries ++ (model.toList ++ ['\n']) := by
  rw [around, String.toList_append, String.toList_append, toList_preamble, List.append_assoc]
  rfl

theorem isToken_text (number : NonFinite) : IsToken number.text.toList := by
  cases number with
  | undefined => exact isToken_of_all rfl
  | infinite negative => cases negative <;> exact isToken_of_all rfl

theorem isToken_number (x : Float) : IsToken (literal x).toList := by
  unfold literal
  cases decode x with
  | finite negative m q =>
    rw [String.toList_ofList]
    exact isToken_millionthsLiteral _ _
  | infinite negative => exact isToken_text _
  | undefined => exact isToken_text _

theorem all_isToken_lines (settings : Settings) : settings.lines.All IsToken := by
  refine Lines.all_iff.mpr ⟨?_, ?_, ?_⟩
  · exact Option.forall_mem_map.mpr fun angle _ => isToken_number angle
  · exact Option.forall_mem_map.mpr fun size _ => isToken_number size
  · exact Option.forall_mem_map.mpr fun _ _ => isToken_wholeLiteral _

theorem all_isDecimal_lines_iff {settings : Settings} :
    settings.lines.All IsDecimal ↔ settings.IsFinite := by
  have hcount : ∀ number ∈ settings.lines.count, IsDecimal number :=
    Option.forall_mem_map.mpr fun _ _ => isDecimal_wholeLiteral _
  rw [Lines.all_iff, and_iff_left hcount, lines, Option.forall_mem_map, Option.forall_mem_map]
  simp only [isDecimal_literal_iff]
  exact ⟨fun ⟨hangle, hsize⟩ => ⟨hangle, hsize⟩, fun h => ⟨h.angle, h.size⟩⟩

theorem render_eq_error_iff {settings : Settings} {part : Part Float} {fault : Fault} :
    settings.render part = .error fault ↔ part.script = .error fault := by
  unfold render
  cases part.script <;> simp [Except.map]

theorem isScript_render {settings : Settings} (hfinite : settings.IsFinite) {part : Part Float}
    (hnamed : part.IsNamed) {script : String} (h : part.script = .ok script) :
    part.IsScript (settings.around script) :=
  ⟨settings.lines, script.toList, all_isDecimal_lines_iff.mpr hfinite,
    part.spelled_of_script hnamed script h, settings.toList_around script⟩

/-- A text that is rendered is a script, for any part, only if the settings are finite: its lines
are those of the settings. -/
theorem isFinite_of_isScript {settings : Settings} {part other : Part Float}
    (hnamed : part.IsNamed) {script : String} (h : part.script = .ok script)
    (hother : other.IsScript (settings.around script)) : settings.IsFinite := by
  obtain ⟨lines, statement, hlines, hstatement, heq⟩ := hother
  have hspelled := part.spelled_of_script hnamed script h
  have hspecial : ∀ lines : Lines, ∀ entry ∈ lines.entries, IsToken ('$' :: entry.1) := by
    intro lines
    simp only [Lines.entries, List.forall_mem_cons]
    exact ⟨isToken_of_all rfl, isToken_of_all rfl, isToken_of_all rfl, List.forall_mem_nil _⟩
  have hnames : settings.lines.entries.map Prod.fst = lines.entries.map Prod.fst := rfl
  obtain ⟨hsame, -⟩ := linesChars_append_inj hnames settings.lines.pairwise_entries
    settings.all_isToken_lines (fun entry hentry number hnumber =>
      isToken_of_isDecimal (hlines entry hentry number hnumber))
    (fun entry hentry => hspelled.not_sets (hspecial _ entry hentry) _)
    (fun entry hentry => hstatement.not_sets (hspecial _ entry hentry) _)
    ((settings.toList_around script).symm.trans heq)
  have hall : settings.lines.All IsDecimal := fun entry hentry => hlines entry (hsame ▸ hentry)
  exact all_isDecimal_lines_iff.mp hall

/-- Rendering fails exactly if a call is given a number that is not finite or a bare name that is no
identifier. Where it succeeds a statement for the part stands after the lines, with all its numbers
finite and written as decimal literals. With finite settings the whole text is a script for the
part, and with others it is no script at all. -/
theorem render_wellFormed (settings : Settings) {part : Part Float} (hnamed : part.IsNamed) :
    ((∃ fault, settings.render part = .error fault) ↔
        ∃ scalar, part.Gives scalar ∧ scalar.IsUnwritable) ∧
      ∀ text, settings.render part = .ok text →
        (∃ statement, part.Spelled statement ∧
          text.toList = linesChars settings.lines.entries ++ (statement ++ ['\n'])) ∧
        (settings.IsFinite → part.IsScript text) ∧
        (¬settings.IsFinite → ∀ other : Part Float, ¬other.IsScript text) := by
  refine ⟨?_, fun text h => ?_⟩
  · simp only [render_eq_error_iff, part.exists_fault_iff]
  · obtain ⟨script, hscript, rfl⟩ := Fault.exists_of_map h
    refine ⟨⟨script.toList, part.spelled_of_script hnamed script hscript,
      settings.toList_around script⟩, fun hfinite => isScript_render hfinite hnamed hscript, ?_⟩
    exact fun hnot other hother => hnot (isFinite_of_isScript hnamed hscript hother)

/-! ## An undefined angle -/

def sample : Part Float := (Build.cube 1 1 1 0).1

theorem sample_isNamed : sample.IsNamed :=
  isNamed_iff.mpr ⟨by decide, List.forall_mem_nil _⟩

/-- An angle that the environment gives as undefined is written as it is, and the text is no
script. -/
theorem undefined_angle_not_isScript :
    ∃ settings text, load none (some "NaN") none none = .ok settings ∧ sample.IsNamed ∧
      settings.render sample = .ok text ∧ ∀ other : Part Float, ¬other.IsScript text := by
  have hscript : sample.script = .ok "cube([1,1,1]);" := by decide
  have hrender : (⟨some undefined, some 0.5, none⟩ : Settings).render sample =
      .ok "$fa=NaN;\n$fs=0.5;\ncube([1,1,1]);\n" := by decide
  refine ⟨_, _, rfl, sample_isNamed, hrender, fun other hother => ?_⟩
  have hfinite : (⟨some undefined, some 0.5, none⟩ : Settings).IsFinite :=
    isFinite_of_isScript sample_isNamed hscript hother
  have hangle : undefined.isFinite = true := hfinite.angle undefined rfl
  exact absurd hangle (by decide)

/-- With the standard settings the same cube is rendered as a script. -/
theorem standard_sample_isScript :
    ∃ text, standard.render sample = .ok text ∧ sample.IsScript text := by
  have hrender : standard.render sample = .ok "$fa=3;\n$fs=0.5;\ncube([1,1,1]);\n" := by decide
  have hfinite : standard.IsFinite :=
    ⟨fun angle hangle => by cases hangle; decide, fun size hsize => by cases hsize; decide⟩
  obtain ⟨-, hscript, -⟩ := (standard.render_wellFormed sample_isNamed).2 _ hrender
  exact ⟨_, hrender, hscript hfinite⟩

end Settings

end SolidScript
