import SolidScript.Part.Inspect
import SolidScript.Proofs.Number.Decoded
import SolidScript.Proofs.Script.Calls

/-!
# What cannot be written

A part has no text exactly if a call within it is given a number that is not finite or a bare name
that is no identifier, at any depth in lists (`Part.exists_fault_iff`). Arguments of glyphs and
internal arguments are not written, so they do not count. The fault is that of the first such value
in the order of the text (`Part.script_eq_error_iff`).
-/

namespace SolidScript

open SolidScript.Part Text

/-! ## Values -/

namespace Value

variable {R : Type}

/-- A value stands inside another one: it is that value, or stands inside an item of a list. -/
inductive Inside (inner : Value R) : Value R → Prop where
  | self : Inside inner inner
  | item {item : Value R} {items : List (Value R)} :
    item ∈ items → Inside inner item → Inside inner (.list items)

mutual

/-- The values inside a value that are no lists, from left to right. -/
def scalars : Value R → List (Value R)
  | .list items => scalarsAll items
  | .bool b => [.bool b]
  | .int n => [.int n]
  | .real r => [.real r]
  | .text s => [.text s]
  | .ident name => [.ident name]

def scalarsAll : List (Value R) → List (Value R)
  | [] => []
  | item :: rest => item.scalars ++ scalarsAll rest

end

/-- A number that is not finite, or a bare name that is no identifier. -/
def IsUnwritable : Value Float → Prop
  | .real r => r.isFinite = false
  | .ident name => isIdentifier name = false
  | _ => False

def fault? : Value Float → Option Fault
  | .real r => (Number.nonFinite? r).map .notFinite
  | .ident name => if isIdentifier name then none else some (.notAnIdentifier name)
  | _ => none

theorem fault?_isSome_iff {value : Value Float} : value.fault?.isSome ↔ value.IsUnwritable := by
  cases value with
  | real r =>
    rw [fault?, IsUnwritable, Option.isSome_map, ← Option.ne_none_iff_isSome, ne_eq,
      Number.nonFinite?_eq_none_iff, Bool.not_eq_true]
  | ident name => simp [fault?, IsUnwritable]
  | _ => simp [fault?, IsUnwritable]

theorem inspection_text_of_nonFinite? {r : Float} {number : Number.NonFinite}
    (h : Number.nonFinite? r = some number) : Number.Layout.inspection.text r = number.text := by
  unfold Number.nonFinite? at h
  unfold Number.Layout.text
  cases hr : Number.decode r <;> rw [hr] at h <;> cases h <;> rfl

theorem message_of_fault? {value : Value Float} {fault : Fault} (h : value.fault? = some fault) :
    fault.message = "cannot serialize value " ++ value.inspect ++ " of type " ++ value.sort := by
  cases value with
  | real r =>
    obtain ⟨number, hnumber, rfl⟩ := Option.map_eq_some_iff.mp h
    rw [inspect, inspection_text_of_nonFinite? hnumber]
    rfl
  | ident name =>
    rw [fault?] at h
    split at h <;> cases h
    rfl
  | _ => cases h

mutual

theorem of?_script : ∀ value : Value Float,
    Fault.of? value.script = value.scalars.findSome? fault?
  | .bool _ | .int _ | .text _ => rfl
  | .real r => by
    rw [script, scalars, List.findSome?_singleton, fault?]
    cases Number.nonFinite? r <;> rfl
  | .ident name => by
    rw [script, scalars, List.findSome?_singleton, fault?]
    split <;> rfl
  | .list items => by rw [script, Fault.of?_map, scalars, of?_scriptAll items]

theorem of?_scriptAll : ∀ values : List (Value Float),
    Fault.of? (scriptAll values) = (scalarsAll values).findSome? fault?
  | [] => rfl
  | value :: rest => by
    rw [scalarsAll, List.findSome?_append, ← of?_script value, ← of?_scriptAll rest, scriptAll]
    cases value.script with
    | error fault => rfl
    | ok text => exact Fault.of?_map _ _

end

theorem mem_scalarsAll {scalar : Value R} {values : List (Value R)} :
    scalar ∈ scalarsAll values ↔ ∃ value ∈ values, scalar ∈ value.scalars := by
  induction values with
  | nil => simp [scalarsAll]
  | cons value rest ih => simp [scalarsAll, ih]

theorem inside_of_mem_scalars {scalar value : Value R} (h : scalar ∈ value.scalars) :
    Inside scalar value := by
  match value with
  | .list items =>
    obtain ⟨item, hitem, hscalar⟩ := mem_scalarsAll.mp h
    exact .item hitem (inside_of_mem_scalars hscalar)
  | .bool _ | .int _ | .real _ | .text _ | .ident _ =>
    rw [List.mem_singleton.mp h]
    exact .self
termination_by value

theorem mem_scalars_of_inside {scalar value : Value R} (hself : scalar ∈ scalar.scalars)
    (h : Inside scalar value) : scalar ∈ value.scalars := by
  induction h with
  | self => exact hself
  | item hitem _ ih => exact mem_scalarsAll.mpr ⟨_, hitem, ih⟩

theorem IsUnwritable.mem_scalars {value : Value Float} (h : value.IsUnwritable) :
    value ∈ value.scalars := by
  cases value with
  | list items => exact h.elim
  | _ => exact List.mem_singleton.mpr rfl

end Value

/-! ## Parts -/

/-- A call is given a value: as a positional argument, or under a name that is written. Glyphs are
given none. -/
def Head.Given (head : Head Float) (value : Value Float) : Prop :=
  head.kind.isGlyph = false ∧
    (value ∈ head.args ∨ ∃ key, (key, value) ∈ head.named.entries ∧ Script.isInternal key = false)

namespace Head

/-- The values that a call is given, in the order of its text. -/
def given (head : Head Float) : List (Value Float) :=
  if head.kind.isGlyph then [] else head.args ++ (Script.written head.named).map Prod.snd

theorem mem_given_iff {head : Head Float} {value : Value Float} :
    value ∈ head.given ↔ head.Given value := by
  unfold given Given Script.written
  cases head.kind.isGlyph <;> simp

end Head

theorem Script.of?_entryText (entry : String × Value Float) :
    Fault.of? (entryText entry) = Fault.of? entry.2.script := Fault.of?_map _ _

theorem Script.of?_opening (head : Head Float) :
    Fault.of? (opening head) = (Value.scalarsAll head.given).findSome? Value.fault? := by
  rw [← Value.of?_scriptAll, Value.scriptAll_eq_collect, Fault.of?_collect]
  unfold opening Head.given
  cases head.kind.isGlyph with
  | true => rfl
  | false =>
    rw [if_neg Bool.false_ne_true, if_neg Bool.false_ne_true, Fault.of?_map, arguments,
      Fault.of?_bind, Value.scriptAll_eq_collect, Fault.of?_collect, Fault.of?_collect,
      List.map_append, List.findSome?_append]
    simp only [List.findSome?_map, List.map_map, Function.comp_def, of?_entryText]

namespace Part

/-- The heads of the parts within a part, each part before those below it, these in order. -/
def headsRule (head : Head Float) (below : List (List (Head Float))) : List (Head Float) :=
  head :: below.flatten

@[inherit_doc headsRule] def heads (part : Part Float) : List (Head Float) := part.fold headsRule

/-- The scalars that are given to the calls within a part, in the order of the text. -/
def scalars (part : Part Float) : List (Value Float) :=
  part.heads.flatMap fun head => Value.scalarsAll head.given

theorem heads_eq (part : Part Float) : part.heads = part.head :: part.parts.flatMap heads := by
  rw [heads, fold_eq, headsRule, List.flatMap_def]
  rfl

theorem mem_heads_iff {part : Part Float} {head : Head Float} :
    head ∈ part.heads ↔ ∃ inner, Within inner part ∧ inner.head = head := by
  induction part using Part.induction with
  | step part ih =>
    rw [heads_eq, List.mem_cons, List.mem_flatMap]
    constructor
    · rintro (rfl | ⟨inner, hinner, hhead⟩)
      · exact ⟨part, .self, rfl⟩
      · obtain ⟨other, hother, heq⟩ := (ih inner hinner).mp hhead
        exact ⟨other, .inside hinner hother, heq⟩
    · rintro ⟨other, hother, rfl⟩
      rcases within_iff.mp hother with rfl | ⟨inner, hinner, hwithin⟩
      · exact .inl rfl
      · exact .inr ⟨inner, hinner, (ih inner hinner).mpr ⟨other, hwithin, rfl⟩⟩

theorem scalars_eq (part : Part Float) :
    part.scalars = Value.scalarsAll part.head.given ++ part.parts.flatMap scalars := by
  rw [scalars, heads_eq, List.flatMap_cons, List.flatMap_assoc]
  rfl

/-- The fault of a part is that of the first scalar in its text that has one. -/
theorem of?_script (part : Part Float) :
    Fault.of? part.script = part.scalars.findSome? Value.fault? := by
  induction part using Part.induction with
  | step part ih =>
    rw [script_eq, Script.rule, Fault.of?_bind, Script.of?_opening, Fault.of?_collect_flatMap ih,
      scalars_eq, List.findSome?_append]

/-- A call within a part is given a value, by itself or at any depth in lists. -/
def Gives (part : Part Float) (scalar : Value Float) : Prop :=
  ∃ inner, Within inner part ∧ ∃ value, inner.head.Given value ∧ Value.Inside scalar value

theorem mem_scalars_iff {part : Part Float} {scalar : Value Float}
    (hself : scalar ∈ scalar.scalars) : scalar ∈ part.scalars ↔ part.Gives scalar := by
  simp only [scalars, List.mem_flatMap, Value.mem_scalarsAll, Head.mem_given_iff]
  constructor
  · rintro ⟨head, hhead, value, hvalue, hscalar⟩
    obtain ⟨inner, hinner, rfl⟩ := mem_heads_iff.mp hhead
    exact ⟨inner, hinner, value, hvalue, Value.inside_of_mem_scalars hscalar⟩
  · rintro ⟨inner, hinner, value, hvalue, hinside⟩
    exact ⟨inner.head, mem_heads_iff.mpr ⟨inner, hinner, rfl⟩, value, hvalue,
      Value.mem_scalars_of_inside hself hinside⟩

/-- A scalar is the first in the text of a part that cannot be written. -/
def FirstUnwritable (part : Part Float) (scalar : Value Float) : Prop :=
  ∃ before after, part.scalars = before ++ scalar :: after ∧
    (∀ other ∈ before, ¬other.IsUnwritable) ∧ scalar.IsUnwritable

theorem script_eq_error_iff {part : Part Float} {fault : Fault} :
    part.script = .error fault ↔
      ∃ scalar, part.FirstUnwritable scalar ∧ scalar.fault? = some fault := by
  have hnone : ∀ value : Value Float, value.fault? = none ↔ ¬value.IsUnwritable := by
    intro value
    rw [← Value.fault?_isSome_iff, Option.not_isSome_iff_eq_none]
  rw [← Fault.of?_eq_some, of?_script, List.findSome?_eq_some_iff]
  simp only [hnone]
  constructor
  · rintro ⟨before, scalar, after, hscalars, hfault, hbefore⟩
    have hunwritable := Value.fault?_isSome_iff.mp (Option.isSome_of_eq_some hfault)
    exact ⟨scalar, ⟨before, after, hscalars, hbefore, hunwritable⟩, hfault⟩
  · rintro ⟨scalar, ⟨before, after, hscalars, hbefore, -⟩, hfault⟩
    exact ⟨before, scalar, after, hscalars, hfault, hbefore⟩

theorem exists_fault_iff (part : Part Float) :
    (∃ fault, part.script = .error fault) ↔ ∃ scalar, part.Gives scalar ∧ scalar.IsUnwritable := by
  have hgives : ∀ scalar : Value Float, part.Gives scalar ∧ scalar.IsUnwritable ↔
      scalar ∈ part.scalars ∧ scalar.IsUnwritable := fun scalar =>
    and_congr_left fun hunwritable => (mem_scalars_iff hunwritable.mem_scalars).symm
  rw [exists_congr hgives]
  simp only [← Value.fault?_isSome_iff, ← Fault.of?_eq_some, of?_script,
    ← Option.isSome_iff_exists, List.findSome?_isSome_iff]

end Part

end SolidScript
