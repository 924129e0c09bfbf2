import SolidScript.Proofs.Script.Calls
import SolidScript.Proofs.Script.Outline
import SolidScript.Proofs.Script.Tokens

/-!
# Scripts tell outlines

The text of a part is the text of its outline, and the outline is legible as long as modules and
written arguments have identifiers for names (`Part.chars_outline`). So parts have equal texts
exactly if they have equal outlines (`Part.script_eq_iff`): nothing that is written is lost, and
nothing else is told.
-/

namespace SolidScript

open Script Text

/-! ## Values -/

mutual

/-- A value as it is written. -/
def Value.mark : Value Float → Mark
  | .bool b => .token (if b then "true" else "false")
  | .int n => .token (Number.wholeLiteral n.toInt)
  | .real r => .token (Number.literal r)
  | .text s => .quoted s
  | .ident name => .token name
  | .list items => .list (Value.marks items)

def Value.marks : List (Value Float) → List Mark
  | [] => []
  | item :: rest => item.mark :: Value.marks rest

end

theorem Fault.chars_of_collect {α : Type} {f : α → Except Fault String} {chars : α → List Char}
    {legible : α → Prop} {xs : List α} {texts : List String}
    (hf : ∀ x ∈ xs, ∀ text, f x = .ok text → text.toList = chars x ∧ legible x)
    (h : Fault.collect (xs.map f) = .ok texts) :
    texts.map String.toList = xs.map chars ∧ ∀ x ∈ xs, legible x := by
  replace h := eq_map_of_collect h
  induction xs generalizing texts with
  | nil => exact ⟨congrArg (List.map String.toList) (List.map_eq_nil_iff.mp h.symm), nofun⟩
  | cons x rest ih =>
    obtain ⟨text, others, rfl, htext, hothers⟩ := List.map_eq_cons_iff.mp h.symm
    obtain ⟨hx, hrest⟩ := List.forall_mem_cons.mp hf
    obtain ⟨hchars, hlegible⟩ := hx text htext.symm
    obtain ⟨hall, hall'⟩ := ih hrest hothers.symm
    refine ⟨?_, List.forall_mem_cons.mpr ⟨hlegible, hall'⟩⟩
    rw [List.map_cons, List.map_cons, hchars, hall]

namespace Value

theorem marks_eq_map (values : List (Value Float)) : marks values = values.map mark := by
  induction values with
  | nil => rfl
  | cons value rest ih => rw [marks, ih, List.map_cons]

theorem toList_intercalate_row {α : Type} {texts : List String} {xs : List α}
    {chars : α → List Char} (h : texts.map String.toList = xs.map chars) (close : Char) :
    (",".intercalate texts).toList ++ [close] = row chars close xs := by
  rw [String.toList_intercalate, h, row_eq]
  rfl

theorem chars_mark (value : Value Float) (text : String) (h : value.script = .ok text) :
    text.toList = value.mark.chars ∧ value.mark.Legible := by
  cases value with
  | bool b =>
    cases h
    refine ⟨rfl, .token ?_⟩
    cases b <;> exact isToken_of_all rfl
  | int n =>
    cases h
    exact ⟨rfl, .token (isToken_wholeLiteral _)⟩
  | real r =>
    rw [script] at h
    split at h
    · cases h
    · rename_i hfinite
      cases h
      exact ⟨rfl, .token (isToken_literal hfinite)⟩
  | text s =>
    cases h
    exact ⟨by simp [mark, Mark.chars, Quoted.text], .quoted s⟩
  | ident name =>
    rw [script] at h
    split at h
    · rename_i hname
      cases h
      exact ⟨rfl, .token (isToken_of_isIdentifier hname)⟩
    · cases h
  | list items =>
    have hbelow : ∀ item ∈ items, ∀ text, item.script = .ok text →
        text.toList = item.mark.chars ∧ item.mark.Legible := by
      intro item hmem text htext
      have hlt : sizeOf item < sizeOf (Value.list items) :=
        Nat.lt_trans (List.sizeOf_lt_of_mem hmem) (by simp)
      exact chars_mark item text htext
    rw [script, scriptAll_eq_collect] at h
    cases hitems : Fault.collect (items.map script) with
    | error fault =>
      rw [hitems] at h
      cases h
    | ok texts =>
      rw [hitems] at h
      cases h
      obtain ⟨htexts, hlegible⟩ := Fault.chars_of_collect hbelow hitems
      rw [mark, marks_eq_map]
      refine ⟨?_, .list fun item hmem => ?_⟩
      · rw [Mark.chars_list, ← toList_intercalate_row (by rw [htexts, List.map_map]; rfl)]
        simp
      · obtain ⟨value, hvalue, rfl⟩ := List.mem_map.mp hmem
        exact hlegible value hvalue
termination_by value

end Value

/-! ## Calls -/

namespace Head

def arguments (head : Head Float) : List Argument :=
  head.args.map (fun value => .positional value.mark) ++
    (written head.named).map fun entry => .named (keyText entry.1) entry.2.mark

/-- Unless it is a glyph, the module and the written arguments have identifiers for names. -/
def IsNamed (head : Head Float) : Prop :=
  head.kind.isGlyph = false →
    isIdentifier head.kind.name ∧ ∀ entry ∈ written head.named, isIdentifier entry.1

instance decidableIsNamed : DecidablePred IsNamed := fun head => inferInstanceAs <|
  Decidable (head.kind.isGlyph = false →
    isIdentifier head.kind.name ∧ ∀ entry ∈ written head.named, isIdentifier entry.1)

end Head

theorem Script.chars_entryText {entry : String × Value Float} (hkey : isIdentifier entry.1)
    {text : String} (h : entryText entry = .ok text) :
    text.toList = (Argument.named (keyText entry.1) entry.2.mark).chars ∧
      (Argument.named (keyText entry.1) entry.2.mark).Legible := by
  unfold entryText at h
  cases hvalue : entry.2.script with
  | error fault =>
    rw [hvalue] at h
    cases h
  | ok value =>
    rw [hvalue] at h
    cases h
    obtain ⟨hchars, hlegible⟩ := entry.2.chars_mark value hvalue
    refine ⟨?_, .named (isToken_keyText hkey) hlegible⟩
    rw [Argument.chars, ← hchars, String.toList_append, String.toList_append, List.append_assoc]
    rfl

theorem Script.chars_arguments {head : Head Float}
    (hkeys : ∀ entry ∈ written head.named, isIdentifier entry.1) {text : String}
    (h : Script.arguments head.args head.named = .ok text) :
    text.toList ++ [')'] = row Argument.chars ')' head.arguments ∧
      ∀ argument ∈ head.arguments, argument.Legible := by
  unfold Script.arguments at h
  rw [Value.scriptAll_eq_collect] at h
  cases hpositional : Fault.collect (head.args.map Value.script) with
  | error fault =>
    rw [hpositional] at h
    cases h
  | ok positional =>
    cases hnamed : Fault.collect ((written head.named).map entryText) with
    | error fault =>
      rw [hpositional, hnamed] at h
      cases h
    | ok byName =>
      rw [hpositional, hnamed] at h
      cases h
      obtain ⟨hvalues, hlegible⟩ := Fault.chars_of_collect
        (fun value _ => value.chars_mark) hpositional
      obtain ⟨hentries, hlegible'⟩ := Fault.chars_of_collect
        (fun entry hmem text => chars_entryText (hkeys entry hmem)) hnamed
      refine ⟨Value.toList_intercalate_row ?_ ')', fun argument hmem => ?_⟩
      · rw [List.map_append, hvalues, hentries, Head.arguments, List.map_append, List.map_map,
          List.map_map]
        rfl
      · rcases List.mem_append.mp hmem with hmem | hmem
        · obtain ⟨value, hvalue, rfl⟩ := List.mem_map.mp hmem
          exact .positional (hlegible value hvalue)
        · obtain ⟨entry, hentry, rfl⟩ := List.mem_map.mp hmem
          exact hlegible' entry hentry

/-! ## Parts -/

namespace Part

def outlineRule (head : Head Float) (parts : List Outline) : Outline :=
  if head.kind.isGlyph then .glyph head.kind.name parts
  else .call head.kind.name head.arguments parts

/-- What a script says of a part. Labels and roles are not written, nor internal arguments, nor any
arguments of a glyph. -/
def outline (part : Part Float) : Outline := part.fold outlineRule

/-- Modules and written arguments have identifiers for names throughout. -/
def IsNamed (part : Part Float) : Prop := ∀ inner, Within inner part → inner.head.IsNamed

theorem outline_eq (part : Part Float) :
    part.outline = outlineRule part.head (part.parts.map outline) := fold_eq _ _

theorem IsNamed.inner {part inner : Part Float} (h : part.IsNamed) (hmem : inner ∈ part.parts) :
    inner.IsNamed := fun other hother => h other (hother.trans (.of_mem hmem))

theorem isNamed_iff {part : Part Float} :
    part.IsNamed ↔ part.head.IsNamed ∧ ∀ inner ∈ part.parts, inner.IsNamed := by
  refine ⟨fun h => ⟨h part .self, fun inner hmem => h.inner hmem⟩, fun h inner hinner => ?_⟩
  cases hinner with
  | self => exact h.1
  | inside hmem hw => exact h.2 _ hmem inner hw

theorem chars_body {texts : List String} {outlines : List Outline}
    (h : texts.map String.toList = outlines.map Outline.chars) :
    (Script.body texts).toList = Outline.charsBody outlines := by
  rw [Outline.charsBody_eq]
  match texts, outlines with
  | [], [] => rfl
  | [only], [outline] => exact (List.cons.inj h).1
  | [_], _ :: _ :: _ => exact absurd (congrArg List.length h) (by simp)
  | _ :: _ :: _, [_] => exact absurd (congrArg List.length h) (by simp)
  | first :: second :: texts, outline₁ :: outline₂ :: outlines =>
    show ("\x7b" ++ String.join (first :: second :: texts) ++ "\x7d").toList = _
    rw [bodyChars, String.toList_append, String.toList_append, String.toList_join,
      List.flatMap_def, List.flatMap_def, h]
    rfl

theorem glyph_of_isGlyph {kind : Kind} (h : kind.isGlyph) :
    ∃ c ∈ Outline.glyphs, kind.name.toList = [c] := by
  cases kind with
  | highlight => exact ⟨'#', by decide, rfl⟩
  | root => exact ⟨'!', by decide, rfl⟩
  | disable => exact ⟨'*', by decide, rfl⟩
  | background => exact ⟨'%', by decide, rfl⟩
  | _ => cases h

/-- What stands before the parts is the glyph, or the module with its row of arguments. -/
theorem chars_opening {head : Head Float} (hnamed : head.IsNamed) {before : String}
    (h : Script.opening head = .ok before) {outlines : List Outline}
    (houtlines : ∀ outline ∈ outlines, outline.Legible) :
    before.toList ++ Outline.charsBody outlines = (outlineRule head outlines).chars ∧
      (outlineRule head outlines).Legible := by
  unfold Script.opening at h
  unfold outlineRule
  split at h
  · rename_i hglyph
    cases h
    obtain ⟨c, hc, hname⟩ := glyph_of_isGlyph hglyph
    rw [if_pos hglyph]
    exact ⟨by rw [Outline.chars], .glyph hname hc houtlines⟩
  · rename_i hglyph
    obtain ⟨hmodule, hkeys⟩ := hnamed (Bool.eq_false_of_not_eq_true hglyph)
    rw [if_neg hglyph]
    cases harguments : Script.arguments head.args head.named with
    | error fault =>
      rw [harguments] at h
      cases h
    | ok text =>
      rw [harguments] at h
      cases h
      obtain ⟨hrow, hlegible⟩ := chars_arguments hkeys harguments
      refine ⟨?_, .call (isToken_of_isIdentifier hmodule) hlegible houtlines⟩
      rw [Outline.chars, ← hrow]
      simp [String.toList_append]

/-- The text of a part is that of its outline. -/
theorem chars_outline (part : Part Float) : part.IsNamed → ∀ text, part.script = .ok text →
    text.toList = part.outline.chars ∧ part.outline.Legible := by
  induction part using Part.induction with
  | step part ih =>
    intro hnamed text h
    obtain ⟨before, texts, hopening, hinner, rfl⟩ := script_ok h
    obtain ⟨htexts, hlegible⟩ := Fault.chars_of_collect
      (fun inner hmem => ih inner hmem (hnamed.inner hmem)) hinner
    have hall : ∀ below ∈ part.parts.map outline, below.Legible := by
      intro below hmem
      obtain ⟨inner, hinner, rfl⟩ := List.mem_map.mp hmem
      exact hlegible inner hinner
    obtain ⟨hchars, hlegible'⟩ := chars_opening (hnamed part .self) hopening hall
    rw [outline_eq, ← hchars, String.toList_append,
      chars_body (by rw [htexts, List.map_map]; rfl)]
    exact ⟨rfl, hlegible'⟩

/-- Two parts that can be written have one text exactly if they have one outline. -/
theorem script_eq_iff {a b : Part Float} (ha : a.IsNamed) (hb : b.IsNamed)
    (hscript : a.script.isOk) (hscript' : b.script.isOk) :
    a.script = b.script ↔ a.outline = b.outline := by
  cases hs : a.script with
  | error fault =>
    rw [hs] at hscript
    cases hscript
  | ok s =>
    cases ht : b.script with
    | error fault =>
      rw [ht] at hscript'
      cases hscript'
    | ok t =>
      obtain ⟨hchars, hlegible⟩ := a.chars_outline ha s hs
      obtain ⟨hchars', hlegible'⟩ := b.chars_outline hb t ht
      constructor
      · intro heq
        cases heq
        exact Outline.chars_inj hlegible hlegible' (hchars.symm.trans hchars')
      · intro heq
        rw [heq] at hchars
        rw [String.toList_inj.mp (hchars.trans hchars'.symm)]

/-- A board with a note that is not written. -/
def board (sizes : List (Value Float)) : Part Float :=
  ⟨0, .ofKind .cube [.list sizes] (.ofList [("_note", .text "front"), ("center", .bool true)])
    .plain, []⟩

def lettering : Part Float :=
  ⟨1, .ofKind .text [.text "say \"hi\""] (.ofList [("fn", .int 6)]) .plain, []⟩

/-- A labelled board with a highlighted text cut out of it. -/
def sign (sizes : List (Value Float)) : Part Float :=
  ⟨3, ⟨.difference, [], ∅, some "sign", .plain⟩,
    [board sizes, ⟨2, .ofKind .highlight [] ∅ .plain, [lettering]⟩]⟩

def boardByName : Part Float :=
  ⟨7, ⟨.raw "cube", [.list [.int 4, .list [.real 0.5, .ident "true"], .text "a,b"]],
    .ofList [("center", .ident "true")], some "board", .group⟩, []⟩

def letteringByName : Part Float :=
  ⟨5, ⟨.raw "text", [.text "say \"hi\""],
    .ofList [("_for", .text "door"), ("fn", .real 6.0000001)], none, .motion⟩, []⟩

/-- The same by the names of modules, with bare names for truth values, another number for the
count, other labels and notes, and an argument of the glyph that could not be written. -/
def signByName : Part Float :=
  ⟨4, ⟨.raw "difference", [], ∅, none, .copies⟩, [boardByName,
    ⟨6, .ofKind .highlight [.real Number.undefined] ∅ .plain, [letteringByName]⟩]⟩

theorem sign_isNamed (sizes : List (Value Float)) : (sign sizes).IsNamed := by
  have hboard : (board sizes).IsNamed :=
    isNamed_iff.mpr ⟨show (board []).head.IsNamed by decide, List.forall_mem_nil _⟩
  have hlettering : lettering.IsNamed := isNamed_iff.mpr ⟨by decide, List.forall_mem_nil _⟩
  have hglyph : IsNamed ⟨2, .ofKind .highlight [] ∅ .plain, [lettering]⟩ :=
    isNamed_iff.mpr ⟨by decide, List.forall_mem_singleton.mpr hlettering⟩
  exact isNamed_iff.mpr ⟨show (sign []).head.IsNamed by decide,
    List.forall_mem_cons.mpr ⟨hboard, List.forall_mem_singleton.mpr hglyph⟩⟩

theorem signByName_isNamed : signByName.IsNamed := by
  have hboard : boardByName.IsNamed := isNamed_iff.mpr ⟨by decide, List.forall_mem_nil _⟩
  have hlettering : letteringByName.IsNamed := isNamed_iff.mpr ⟨by decide, List.forall_mem_nil _⟩
  have hglyph : IsNamed
      ⟨6, .ofKind .highlight [.real Number.undefined] ∅ .plain, [letteringByName]⟩ :=
    isNamed_iff.mpr ⟨by decide, List.forall_mem_singleton.mpr hlettering⟩
  exact isNamed_iff.mpr ⟨by decide,
    List.forall_mem_cons.mpr ⟨hboard, List.forall_mem_singleton.mpr hglyph⟩⟩

theorem outline_letteringByName : letteringByName.outline = lettering.outline := by
  have hfacets : Value.mark (.real 6.0000001) = Value.mark (.int 6) :=
    congrArg Mark.token (by decide +kernel)
  exact congrArg (fun mark => Outline.call "text" [.positional (.quoted "say \"hi\""),
    .named "$fn" mark] []) hfacets

/-- What is not written does not tell the two signs apart, but how lists are nested does. -/
theorem sign_script_eq_signByName :
    (sign [.int 4, .list [.real 0.5, .bool true], .text "a,b"]).script = signByName.script ∧
      (sign [.int 4, .list [.real 0.5, .bool true, .text "a,b"]]).script ≠ signByName.script := by
  have houtline : (sign [.int 4, .list [.real 0.5, .bool true], .text "a,b"]).outline =
      signByName.outline := by
    show outlineRule (sign []).head [_, outlineRule _ [lettering.outline]] =
      outlineRule signByName.head [_, outlineRule _ [letteringByName.outline]]
    rw [outline_letteringByName]
    rfl
  refine ⟨(script_eq_iff (sign_isNamed _) signByName_isNamed rfl rfl).mpr houtline, fun heq => ?_⟩
  have hsame := (script_eq_iff (sign_isNamed _) signByName_isNamed rfl rfl).mp heq
  rw [← houtline] at hsame
  cases hsame

end Part

end SolidScript
