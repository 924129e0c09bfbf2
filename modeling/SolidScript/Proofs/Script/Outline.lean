import SolidScript.Proofs.Script.Delimited

/-!
# Outlines

An outline is what a script says: for each part its module or glyph, its arguments as they are
written and the outlines of its parts. Legible outlines can be read back from their texts
(`Outline.decodes`): a value ends before a delimiter, and an outline ends itself, because a
semicolon, a brace and the beginning of another outline are never confused.
-/

namespace SolidScript

open Script

/-- A value as it is written: strings and lists by their contents, all others by their token. -/
inductive Mark where
  | token (text : String)
  | quoted (content : String)
  | list (items : List Mark)

inductive Argument where
  | positional (mark : Mark)
  | named (key : String) (mark : Mark)

inductive Outline where
  | glyph (name : String) (parts : List Outline)
  | call (name : String) (arguments : List Argument) (parts : List Outline)

namespace Mark

mutual

def chars : Mark → List Char
  | token text => text.toList
  | quoted content => '"' :: (Text.Quoted.encode content.toList ++ ['"'])
  | list items => '[' :: charsRow items

/-- The texts of values with commas between them and a bracket at the end. -/
def charsRow : List Mark → List Char
  | [] => [']']
  | item :: rest => item.chars ++ charsFollowing rest

/-- The values that follow another one in a list. -/
def charsFollowing : List Mark → List Char
  | [] => [']']
  | item :: rest => ',' :: (item.chars ++ charsFollowing rest)

end

/-- Tokens are tokens of the language. -/
inductive Legible : Mark → Prop where
  | token {text : String} : IsToken text.toList → Legible (token text)
  | quoted (content : String) : Legible (quoted content)
  | list {items : List Mark} : (∀ item ∈ items, Legible item) → Legible (list items)

theorem charsFollowing_eq (items : List Mark) :
    charsFollowing items = following chars ']' items := by
  induction items with
  | nil => rfl
  | cons item rest ih => rw [charsFollowing, following, ih]

theorem chars_list (items : List Mark) : (list items).chars = '[' :: row chars ']' items := by
  rw [chars]
  cases items with
  | nil => rfl
  | cons item rest => rw [charsRow, row, charsFollowing_eq]

theorem induction {motive : Mark → Prop} (token : ∀ text, motive (token text))
    (quoted : ∀ content, motive (quoted content))
    (list : ∀ items, (∀ item ∈ items, motive item) → motive (list items)) (mark : Mark) :
    motive mark := by
  cases mark with
  | token text => exact token text
  | quoted content => exact quoted content
  | list items =>
    refine list items fun item hmem => ?_
    have hlt : sizeOf item < sizeOf (Mark.list items) :=
      Nat.lt_trans (List.sizeOf_lt_of_mem hmem) (by simp)
    exact induction token quoted list item
termination_by mark

/-- How a value of one sort begins. -/
def First : Mark → Char → Prop
  | token _, c => isTokenChar c
  | quoted _, c => c = '"'
  | list _, c => c = '['

theorem begins {mark : Mark} (h : mark.Legible) : Begins mark.First mark.chars := by
  cases h with
  | token h => exact h.begins
  | quoted content => exact ⟨'"', _, rfl, rfl⟩
  | list h => exact ⟨'[', _, rfl, rfl⟩

/-- Values that begin differently have different texts. -/
theorem chars_ne {x y : Mark} (hx : x.Legible) (hy : y.Legible)
    (hne : ∀ c, x.First c → ¬y.First c) (r s : List Char) : x.chars ++ r ≠ y.chars ++ s := by
  intro h
  refine ((begins hx).append r).elim ?_ hne
  rw [h]
  exact (begins hy).append s

theorem token_ne_quoted {text : String} (h : IsToken text.toList) (content : String)
    (r s : List Char) : (token text).chars ++ r ≠ (quoted content).chars ++ s := by
  refine chars_ne (.token h) (.quoted content) ?_ r s
  rintro _ (hc : isTokenChar _) rfl
  exact absurd hc (by decide)

theorem token_ne_list {text : String} (h : IsToken text.toList) {items : List Mark}
    (hitems : ∀ item ∈ items, Legible item) (r s : List Char) :
    (token text).chars ++ r ≠ (list items).chars ++ s := by
  refine chars_ne (.token h) (.list hitems) ?_ r s
  rintro _ (hc : isTokenChar _) rfl
  exact absurd hc (by decide)

theorem quoted_ne_list (content : String) {items : List Mark}
    (hitems : ∀ item ∈ items, Legible item) (r s : List Char) :
    (quoted content).chars ++ r ≠ (list items).chars ++ s := by
  refine chars_ne (.quoted content) (.list hitems) ?_ r s
  rintro _ rfl (hc : '"' = '[')
  exact absurd hc (by decide)

theorem begins_not_delimiter (mark : Mark) (h : mark.Legible) :
    Begins (fun c => ¬IsDelimiter c) mark.chars := by
  refine (begins h).mono fun c hc hdelimiter => ?_
  cases mark with
  | token text => exact not_isTokenChar_of_isDelimiter hdelimiter hc
  | quoted content => exact absurd hdelimiter (hc ▸ by decide)
  | list items => exact absurd hdelimiter (hc ▸ by decide)

theorem decodes_token {text : String} (h : IsToken text.toList) :
    Decodes chars Legible (Begins IsDelimiter) (token text) := by
  intro y hy r s hr hs heq
  cases hy with
  | token h' =>
    have hr' := hr.mono fun c => not_isTokenChar_of_isDelimiter
    have hs' := hs.mono fun c => not_isTokenChar_of_isDelimiter
    obtain ⟨htext, hrest⟩ := token_append_inj h h' hr' hs' heq
    exact ⟨congrArg token (String.toList_inj.mp htext), hrest⟩
  | quoted content => exact absurd heq (token_ne_quoted h content r s)
  | list hitems => exact absurd heq (token_ne_list h hitems r s)

theorem decodes_quoted (content : String) :
    Decodes chars Legible (Begins IsDelimiter) (quoted content) := by
  intro y hy r s _ _ heq
  cases hy with
  | token h => exact absurd heq.symm (token_ne_quoted h content s r)
  | quoted content' =>
    rw [chars, chars, List.cons_append, List.cons_append, List.append_assoc,
      List.append_assoc] at heq
    obtain ⟨hcontent, hrest⟩ := quoted_append_inj (List.cons.inj heq).2
    exact ⟨congrArg quoted (String.toList_inj.mp hcontent), hrest⟩
  | list hitems => exact absurd heq (quoted_ne_list content hitems r s)

theorem decodes_list {items : List Mark} (hitems : Readable chars Legible items) :
    Decodes chars Legible (Begins IsDelimiter) (list items) := by
  intro y hy r s _ _ heq
  have hlegible : ∀ item ∈ items, Legible item := fun item hmem => (hitems item hmem).1
  cases hy with
  | token h => exact absurd heq.symm (token_ne_list h hlegible s r)
  | quoted content => exact absurd heq.symm (quoted_ne_list content hlegible s r)
  | list hitems' =>
    rw [chars_list, chars_list] at heq
    obtain ⟨rfl, hrest⟩ := decodes_row (by decide) (by decide) begins_not_delimiter hitems _
      hitems' r s trivial trivial (List.cons.inj heq).2
    exact ⟨rfl, hrest⟩

/-- A value can be read back before a delimiter. -/
theorem decodes (mark : Mark) : mark.Legible → Decodes chars Legible (Begins IsDelimiter) mark := by
  induction mark using Mark.induction with
  | token text =>
    rintro ⟨h⟩
    exact decodes_token h
  | quoted content => exact fun _ => decodes_quoted content
  | list items ih =>
    rintro (_ | _ | hitems)
    exact decodes_list fun item hmem => ⟨hitems item hmem, ih item hmem (hitems item hmem)⟩

end Mark

/-! ## Arguments -/

namespace Argument

def chars : Argument → List Char
  | positional mark => mark.chars
  | named key mark => key.toList ++ '=' :: mark.chars

/-- Names are tokens of the language. -/
inductive Legible : Argument → Prop where
  | positional {mark : Mark} : mark.Legible → Legible (positional mark)
  | named {key : String} {mark : Mark} : IsToken key.toList → mark.Legible →
    Legible (named key mark)

theorem begins_not_delimiter (argument : Argument) (h : argument.Legible) :
    Begins (fun c => ¬IsDelimiter c) argument.chars := by
  cases h with
  | positional h => exact Mark.begins_not_delimiter _ h
  | named hkey h =>
    have hfirst := hkey.begins.mono fun c hc hdelimiter =>
      not_isTokenChar_of_isDelimiter hdelimiter hc
    exact hfirst.append _

/-- The equals sign and the value of a named argument. -/
def assigned (value : List Char) : List Char := '=' :: value

theorem begins_assigned (value : List Char) : Begins (· = '=') (assigned value) :=
  ⟨'=', value, rfl, rfl⟩

theorem begins_assigned_not_token (value : List Char) :
    Begins (fun c => ¬isTokenChar c) (assigned value) :=
  (begins_assigned value).mono fun c hc => hc ▸ by decide

theorem chars_named_append (key : String) (mark : Mark) (r : List Char) :
    (named key mark).chars ++ r = key.toList ++ assigned (mark.chars ++ r) := by
  rw [chars, List.append_assoc]
  rfl

/-- An equals sign stands behind a name, and never behind a value. -/
theorem positional_ne_named {mark : Mark} (h : mark.Legible) {key : String}
    (hkey : IsToken key.toList) {r : List Char} (hr : Begins IsDelimiter r) (value : Mark)
    (s : List Char) : (positional mark).chars ++ r ≠ (named key value).chars ++ s := by
  intro heq
  rw [chars_named_append] at heq
  have hbegins : Begins mark.First (key.toList ++ assigned (value.chars ++ s)) :=
    heq ▸ (Mark.begins h).append r
  cases h with
  | token h =>
    -- The token would be the name, and an equals sign would stand where a delimiter does.
    obtain ⟨-, hrest⟩ := token_append_inj h hkey
      (hr.mono fun c => not_isTokenChar_of_isDelimiter) (begins_assigned_not_token _) heq
    refine hr.elim (hrest ▸ begins_assigned _) ?_
    rintro _ hdelimiter rfl
    exact absurd hdelimiter (by decide)
  | quoted content =>
    refine hbegins.elim (hkey.begins.append _) ?_
    rintro _ rfl
    decide
  | list hitems =>
    refine hbegins.elim (hkey.begins.append _) ?_
    rintro _ rfl
    decide

theorem decodes {argument : Argument} (h : argument.Legible) :
    Decodes chars Legible (Begins IsDelimiter) argument := by
  intro y hy r s hr hs heq
  cases h with
  | positional h =>
    cases hy with
    | positional h' =>
      obtain ⟨rfl, hrest⟩ := Mark.decodes _ h _ h' r s hr hs heq
      exact ⟨rfl, hrest⟩
    | named hkey h' => exact absurd heq (positional_ne_named h hkey hr _ s)
  | named hkey h =>
    cases hy with
    | positional h' => exact absurd heq.symm (positional_ne_named h' hkey hs _ r)
    | named hkey' h' =>
      rw [chars_named_append, chars_named_append] at heq
      obtain ⟨hname, hvalue⟩ := token_append_inj hkey hkey' (begins_assigned_not_token _)
        (begins_assigned_not_token _) heq
      obtain ⟨rfl, hrest⟩ := Mark.decodes _ h _ h' r s hr hs (List.cons.inj hvalue).2
      exact ⟨by rw [String.toList_inj.mp hname], hrest⟩

theorem readable {arguments : List Argument} (h : ∀ argument ∈ arguments, argument.Legible) :
    Readable chars Legible arguments :=
  fun argument hmem => ⟨h argument hmem, decodes (h argument hmem)⟩

end Argument

/-! ## Parts -/

namespace Outline

def glyphs : List Char := ['#', '!', '*', '%']

mutual

def chars : Outline → List Char
  | glyph name parts => name.toList ++ charsBody parts
  | call name arguments parts =>
    name.toList ++ '(' :: (row Argument.chars ')' arguments ++ charsBody parts)

def charsBody : List Outline → List Char
  | [] => [';']
  | [only] => only.chars
  | first :: second :: rest => '{' :: (first.chars ++ (second.chars ++ charsAll rest) ++ ['}'])

def charsAll : List Outline → List Char
  | [] => []
  | first :: rest => first.chars ++ charsAll rest

end

theorem charsAll_eq (parts : List Outline) : charsAll parts = parts.flatMap chars := by
  induction parts with
  | nil => rfl
  | cons first rest ih => rw [charsAll, ih, List.flatMap_cons]

theorem charsBody_eq (parts : List Outline) : charsBody parts = bodyChars chars parts := by
  match parts with
  | [] => rfl
  | [only] => rw [charsBody, bodyChars]
  | first :: second :: rest =>
    rw [charsBody, bodyChars, charsAll_eq, List.flatMap_cons, List.flatMap_cons]

/-- Glyphs are those of the language, and modules and arguments have tokens for names. -/
inductive Legible : Outline → Prop where
  | glyph {name : String} {c : Char} {parts : List Outline} : name.toList = [c] → c ∈ glyphs →
    (∀ part ∈ parts, Legible part) → Legible (glyph name parts)
  | call {name : String} {arguments : List Argument} {parts : List Outline} :
    IsToken name.toList → (∀ argument ∈ arguments, argument.Legible) →
    (∀ part ∈ parts, Legible part) → Legible (call name arguments parts)

theorem induction {motive : Outline → Prop}
    (glyph : ∀ name parts, (∀ part ∈ parts, motive part) → motive (glyph name parts))
    (call : ∀ name arguments parts, (∀ part ∈ parts, motive part) →
      motive (call name arguments parts)) (outline : Outline) : motive outline := by
  cases outline with
  | glyph name parts =>
    refine glyph name parts fun part hmem => ?_
    have hlt : sizeOf part < sizeOf (Outline.glyph name parts) :=
      Nat.lt_of_lt_of_le (List.sizeOf_lt_of_mem hmem) (by simp)
    exact induction glyph call part
  | call name arguments parts =>
    refine call name arguments parts fun part hmem => ?_
    have hlt : sizeOf part < sizeOf (Outline.call name arguments parts) :=
      Nat.lt_of_lt_of_le (List.sizeOf_lt_of_mem hmem) (by simp)
    exact induction glyph call part
termination_by outline

theorem not_isTokenChar_of_mem_glyphs {c : Char} (h : c ∈ glyphs) : ¬isTokenChar c := by
  simp only [glyphs, List.mem_cons, List.not_mem_nil, or_false] at h
  rcases h with rfl | rfl | rfl | rfl <;> decide

theorem not_isLayout_of_mem_glyphs {c : Char} (h : c ∈ glyphs) : ¬IsLayout c := by
  simp only [glyphs, List.mem_cons, List.not_mem_nil, or_false] at h
  rcases h with rfl | rfl | rfl | rfl <;> decide

theorem begins_not_layout (outline : Outline) (h : outline.Legible) :
    Begins (fun c => ¬IsLayout c) outline.chars := by
  cases h with
  | glyph hname hc _ =>
    rw [chars, hname]
    exact ⟨_, _, rfl, not_isLayout_of_mem_glyphs hc⟩
  | call hname _ _ =>
    rw [chars]
    exact (hname.begins.mono fun c hc hlayout => not_isTokenChar_of_isLayout hlayout hc).append _

theorem glyph_ne_call {name : String} {c : Char} (hname : name.toList = [c]) (hc : c ∈ glyphs)
    {name' : String} (hname' : IsToken name'.toList) (parts parts' : List Outline)
    (arguments : List Argument) (r s : List Char) :
    (glyph name parts).chars ++ r ≠ (call name' arguments parts').chars ++ s := by
  intro heq
  rw [chars, chars, hname, List.append_assoc, List.append_assoc] at heq
  refine Begins.elim ⟨c, _, rfl, hc⟩ (heq ▸ hname'.begins.append _) fun c hc => ?_
  exact not_isTokenChar_of_mem_glyphs hc

theorem decodes_charsBody {parts : List Outline}
    (hparts : ∀ part ∈ parts, part.Legible ∧ Decodes chars Legible (fun _ => True) part) :
    Decodes charsBody (∀ part ∈ ·, part.Legible) (fun _ => True) parts := by
  intro parts' hparts' r s _ _ heq
  rw [charsBody_eq, charsBody_eq] at heq
  exact decodes_bodyChars begins_not_layout hparts parts' hparts' r s trivial trivial heq

/-- Outlines end themselves. -/
theorem decodes (outline : Outline) :
    outline.Legible → Decodes chars Legible (fun _ => True) outline := by
  induction outline using Outline.induction with
  | glyph name parts ih =>
    rintro (⟨hname, hc, hparts⟩ | _) y hy r s _ _ heq
    have hbelow := decodes_charsBody fun part hmem =>
      ⟨hparts part hmem, ih part hmem (hparts part hmem)⟩
    cases hy with
    | call hname' _ _ => exact absurd heq (glyph_ne_call hname hc hname' _ _ _ r s)
    | glyph hname' _ hparts' =>
      rw [chars, chars, List.append_assoc, List.append_assoc, hname, hname'] at heq
      obtain ⟨hglyph, hbody⟩ := List.cons.inj heq
      obtain ⟨rfl, hrest⟩ := hbelow _ hparts' r s trivial trivial hbody
      rw [← hglyph, ← hname, String.toList_inj] at hname'
      exact ⟨by rw [hname'], hrest⟩
  | call name arguments parts ih =>
    rintro (_ | ⟨hname, harguments, hparts⟩) y hy r s _ _ heq
    have hbelow := decodes_charsBody fun part hmem =>
      ⟨hparts part hmem, ih part hmem (hparts part hmem)⟩
    cases hy with
    | glyph hname' hc' _ => exact absurd heq.symm (glyph_ne_call hname' hc' hname _ _ _ s r)
    | call hname' harguments' hparts' =>
      rw [chars, chars, List.append_assoc, List.append_assoc] at heq
      -- The name ends before the first parenthesis, and the arguments with the last one.
      obtain ⟨hmodule, hopen⟩ := token_append_inj hname hname'
        ⟨'(', _, rfl, by decide⟩ ⟨'(', _, rfl, by decide⟩ heq
      have hafter := (List.cons.inj hopen).2
      rw [List.append_eq, List.append_eq, List.append_assoc, List.append_assoc] at hafter
      obtain ⟨rfl, hbody⟩ := decodes_row (by decide) (by decide) Argument.begins_not_delimiter
        (Argument.readable harguments) _ harguments' _ _ trivial trivial hafter
      obtain ⟨rfl, hrest⟩ := hbelow _ hparts' r s trivial trivial hbody
      exact ⟨by rw [String.toList_inj.mp hmodule], hrest⟩

/-- The text of a legible outline tells the outline. -/
theorem chars_inj {x y : Outline} (hx : x.Legible) (hy : y.Legible) (h : x.chars = y.chars) :
    x = y := by
  refine (x.decodes hx y hy [] [] trivial trivial ?_).1
  rw [h]

end Outline

end SolidScript
