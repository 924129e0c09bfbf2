import Std.Data.HashMap
import SolidScript.Part.Walk

/-!
# Memory

A memory keeps one value for each part, under its serial number, and never changes a value it
has. `settle` fills it bottom up with the values of a fold, so that a part that stands in many
places is computed once.
-/

namespace SolidScript

structure Memo (α : Type) where
  cells : Std.HashMap Nat α

namespace Memo

variable {R α : Type}

def empty : Memo α := ⟨∅⟩

instance : EmptyCollection (Memo α) := ⟨empty⟩

def get? (memo : Memo α) (part : Part R) : Option α := memo.cells[part.serial]?

/-- Keep a value for a part that has none. -/
def fill (memo : Memo α) (part : Part R) (value : α) : Memo α :=
  ⟨memo.cells.insertIfNew part.serial value⟩

theorem get?_fill (memo : Memo α) (part : Part R) (value : α) (other : Part R) :
    (memo.fill part value).get? other =
      (memo.get? other).or (if other.serial = part.serial then some value else none) := by
  unfold get? fill
  rw [Std.HashMap.getElem?_insertIfNew]
  by_cases h : part.serial = other.serial
  · by_cases hm : part.serial ∈ memo.cells
    · simp [h, h ▸ hm]
    · simp [h, h ▸ hm]
  · have h' : ¬other.serial = part.serial := fun e => h e.symm
    simp [h, h']

/-- Those of the parts that have no value yet. -/
def lacking (memo : Memo α) (parts : List (Part R)) : List (Part R) :=
  parts.filter fun part => (memo.get? part).isNone

open SolidScript.Part

/-- The agenda after entering a part: those below it that have no value yet, the last one first, and
then the part itself to leave. -/
def descend (memo : Memo α) (part : Part R) (rest : List (Visit R)) : List (Visit R) :=
  expand (memo.lacking part.parts).reverse part rest

theorem agendaWeight_descend (memo : Memo α) (part : Part R) (rest : List (Visit R)) :
    agendaWeight (memo.descend part rest) < agendaWeight (.enter part :: rest) := by
  refine agendaWeight_expand ?_
  rw [sizeAll_perm (List.reverse_perm _)]
  exact sizeAll_filter_le _ part.parts

/-- Work off an agenda. A part with a value is passed over; another one is entered, and when it is
left its value comes from the values of its parts, all of which are kept by then. -/
def settle (rule : Head R → List α → α) (missing : α) : List (Visit R) → Memo α → Memo α
  | [], memo => memo
  | .enter part :: rest, memo =>
    match memo.get? part with
    | some _ => settle rule missing rest memo
    | none => settle rule missing (memo.descend part rest) memo
  | .leave part :: rest, memo =>
    let values := part.parts.map fun inner => (memo.get? inner).getD missing
    settle rule missing rest (memo.fill part (rule part.head values))
termination_by agenda => agendaWeight agenda
decreasing_by
  · simp [Visit.weight, size_eq part]
  · exact agendaWeight_descend memo part rest
  · exact agendaWeight_leave part rest

/-- The value of a part, with the memory that has it and those of all parts it needs. -/
def value (rule : Head R → List α → α) (missing : α) (part : Part R) (memo : Memo α) :
    α × Memo α :=
  let settled := settle rule missing [.enter part] memo
  ((settled.get? part).getD missing, settled)

end Memo

end SolidScript
