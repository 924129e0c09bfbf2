import SolidScript.Proofs.Number.Decimal
import SolidScript.Proofs.Script.Decoding

/-!
# The grammar of statements

A statement is a glyph or the call of a module, with a semicolon, a single statement or statements
in braces after it. Calls list values and named values with commas between them, and a value is a
decimal literal, a word, a quoted string or a list of values in brackets. The grammar is given
together with what the phrases stand for, so that a number is known from a word: `Value.Spelled`,
`Head.Spelled` and `Part.Spelled` relate values, heads and parts to the texts that stand for them.

The text of a part is a statement for it (`Part.spelled_of_script`), provided that modules and
written arguments have identifiers for names.
-/

namespace SolidScript

open SolidScript.Part Script Text Number

/-! ## Phrases -/

namespace Text.Quoted

/-- What stands between quotes: no bare quote and no line feed, and after a backslash the quote or
the backslash that it escapes, or an `n` for a line feed. -/
inductive IsBody : List Char → Prop where
  | nil : IsBody []
  | plain {c : Char} {rest : List Char} : c ∉ ['"', '\\', '\n'] → IsBody rest → IsBody (c :: rest)
  | escape {c : Char} {rest : List Char} : c ∈ ['"', '\\', 'n'] → IsBody rest →
    IsBody ('\\' :: c :: rest)

theorem isBody_encode (s : List Char) : IsBody (encode s) := by
  induction s with
  | nil => exact .nil
  | cons c rest ih =>
    unfold encode
    split
    · exact .escape (by decide) ih
    · split
      · exact .escape (by decide) ih
      · split
        · exact .escape (by decide) ih
        · rename_i hquote hslash hfeed
          refine .plain ?_ ih
          simp [hquote, hslash, hfeed]

end Text.Quoted

/-- A text stands for a value. Numbers that are not finite have none. -/
inductive Value.Spelled : Value Float → List Char → Prop where
  | bool (b : Bool) : Spelled (.bool b) (if b then "true" else "false").toList
  | int {n : Int64} {text : List Char} : IsDecimal text → Spelled (.int n) text
  | real {r : Float} {text : List Char} : r.isFinite → IsDecimal text → Spelled (.real r) text
  | text {s : String} {body : List Char} : Quoted.IsBody body →
    Spelled (.text s) ('"' :: (body ++ ['"']))
  | ident {name : String} : isIdentifier name → Spelled (.ident name) name.toList
  | list {items : List (Value Float)} {texts : List (List Char)} :
    List.Forall₂ Spelled items texts →
    Spelled (.list items) ('[' :: ([','].intercalate texts ++ [']']))

/-- A name and a value with an equals sign between them. -/
def Script.EntrySpelled (entry : String × Value Float) (text : List Char) : Prop :=
  isIdentifier (keyText entry.1) ∧
    ∃ value, entry.2.Spelled value ∧ text = (keyText entry.1).toList ++ '=' :: value

/-- What stands before the parts: a glyph, or a call with its arguments. -/
inductive Head.Spelled (head : Head Float) : List Char → Prop where
  | glyph {c : Char} : head.kind.isGlyph → c ∈ Outline.glyphs → head.kind.name.toList = [c] →
    Spelled head [c]
  | call {positional named : List (List Char)} : head.kind.isGlyph = false →
    isIdentifier head.kind.name → List.Forall₂ Value.Spelled head.args positional →
    List.Forall₂ EntrySpelled (written head.named) named →
    Spelled head
      (head.kind.name.toList ++ '(' :: ([','].intercalate (positional ++ named) ++ [')']))

/-- A statement for a part: what stands before its parts, and the body with their statements. -/
inductive Part.Spelled : Part Float → List Char → Prop where
  | statement {part : Part Float} {before : List Char} {texts : List (List Char)} :
    part.head.Spelled before → List.Forall₂ Spelled part.parts texts →
    Spelled part (before ++ bodyChars id texts)

/-! ## What is written -/

theorem Fault.spelled_of_collect {α : Type} {f : α → Except Fault String}
    {spelled : α → List Char → Prop} {xs : List α} {texts : List String}
    (hf : ∀ x ∈ xs, ∀ text, f x = .ok text → spelled x text.toList)
    (h : Fault.collect (xs.map f) = .ok texts) :
    List.Forall₂ spelled xs (texts.map String.toList) :=
  List.forall₂_map_right_iff.mpr (forall₂_of_collect hf h)

theorem Value.spelled_of_script (value : Value Float) (text : String)
    (h : value.script = .ok text) : value.Spelled text.toList := by
  match value with
  | .bool b =>
    cases h
    exact .bool b
  | .int n =>
    cases h
    exact .int (isDecimal_wholeLiteral _)
  | .real r =>
    rw [script] at h
    split at h
    · cases h
    · rename_i hfinite
      cases h
      have hr := nonFinite?_eq_none_iff.mp hfinite
      exact .real hr (isDecimal_literal_iff.mpr hr)
  | .text s =>
    cases h
    have htext : (Quoted.text s).toList = '"' :: (Quoted.encode s.toList ++ ['"']) := by
      simp [Quoted.text]
    rw [htext]
    exact .text (Quoted.isBody_encode _)
  | .ident name =>
    rw [script] at h
    split at h
    · cases h
      exact .ident ‹_›
    · cases h
  | .list items =>
    rw [script, scriptAll_eq_collect] at h
    obtain ⟨texts, hitems, rfl⟩ := Fault.exists_of_map h
    have htexts := Fault.spelled_of_collect (fun item _ => item.spelled_of_script) hitems
    have htext : ("[" ++ ",".intercalate texts ++ "]").toList =
        '[' :: ([','].intercalate (texts.map String.toList) ++ [']']) := by
      rw [String.toList_append, String.toList_append, String.toList_intercalate]
      rfl
    rw [htext]
    exact .list htexts
termination_by value

theorem Script.isIdentifier_keyText {key : String} (h : isIdentifier key) :
    isIdentifier (keyText key) := by
  unfold keyText
  split
  · rename_i hspecial
    have hspecials : ∀ name ∈ specialKeys, isIdentifier ("$" ++ name) := by decide
    exact hspecials key (List.contains_iff_mem.mp hspecial)
  · exact h

theorem Script.entrySpelled_of_entryText {entry : String × Value Float}
    (hkey : isIdentifier entry.1) {text : String} (h : entryText entry = .ok text) :
    EntrySpelled entry text.toList := by
  obtain ⟨value, hvalue, rfl⟩ := Fault.exists_of_map h
  refine ⟨isIdentifier_keyText hkey, value.toList, entry.2.spelled_of_script value hvalue, ?_⟩
  rw [String.toList_append, String.toList_append, List.append_assoc]
  rfl

theorem Script.exists_of_arguments {args : List (Value Float)} {named : Named (Value Float)}
    {text : String} (h : arguments args named = .ok text) :
    ∃ positional byName, Fault.collect (args.map Value.script) = .ok positional ∧
      Fault.collect ((written named).map entryText) = .ok byName ∧
      text = ",".intercalate (positional ++ byName) := by
  rw [arguments, Value.scriptAll_eq_collect] at h
  obtain ⟨positional, hpositional, h⟩ := Fault.exists_of_bind h
  obtain ⟨byName, hbyName, h⟩ := Fault.exists_of_bind h
  exact ⟨positional, byName, hpositional, hbyName, (Except.ok.inj h).symm⟩

theorem Script.toList_call (name : String) (texts : List String) :
    (name ++ "(" ++ ",".intercalate texts ++ ")").toList =
      name.toList ++ '(' :: ([','].intercalate (texts.map String.toList) ++ [')']) := by
  simp [String.toList_append]

theorem Head.spelled_of_opening {head : Head Float} (hnamed : head.IsNamed) {before : String}
    (h : opening head = .ok before) : head.Spelled before.toList := by
  unfold opening at h
  split at h
  · rename_i hglyph
    cases h
    obtain ⟨c, hc, hname⟩ := glyph_of_isGlyph hglyph
    rw [hname]
    exact .glyph hglyph hc hname
  · rename_i hglyph
    have hcall := Bool.eq_false_of_not_eq_true hglyph
    obtain ⟨hmodule, hkeys⟩ := hnamed hcall
    obtain ⟨text, harguments, rfl⟩ := Fault.exists_of_map h
    obtain ⟨positional, byName, hpositional, hbyName, rfl⟩ := exists_of_arguments harguments
    rw [toList_call, List.map_append]
    exact .call hcall hmodule
      (Fault.spelled_of_collect (fun value _ => value.spelled_of_script) hpositional)
      (Fault.spelled_of_collect
        (fun entry hmem text => entrySpelled_of_entryText (hkeys entry hmem)) hbyName)

theorem Script.toList_body (texts : List String) :
    (body texts).toList = bodyChars id (texts.map String.toList) := by
  match texts with
  | [] => rfl
  | [only] => rfl
  | first :: second :: rest =>
    show ("\x7b" ++ String.join (first :: second :: rest) ++ "\x7d").toList = _
    rw [String.toList_append, String.toList_append, String.toList_join]
    simp [bodyChars, List.flatMap_def]

theorem Part.spelled_of_script (part : Part Float) : part.IsNamed → ∀ text,
    part.script = .ok text → part.Spelled text.toList := by
  induction part using Part.induction with
  | step part ih =>
    intro hnamed text h
    obtain ⟨before, texts, hopening, hinner, rfl⟩ := script_ok h
    have htexts := Fault.spelled_of_collect
      (fun inner hmem => ih inner hmem (hnamed.inner hmem)) hinner
    rw [String.toList_append, toList_body]
    exact .statement (Head.spelled_of_opening (hnamed part .self) hopening) htexts

end SolidScript
