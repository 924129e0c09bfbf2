import SolidScript.Part.Basic

/-!
# Walks with an agenda

A walk over models of any depth keeps an agenda: parts to enter, and parts to leave once their
own parts are done. Entering a part makes the agenda lighter, so every walk ends.

`deepestFirst` lists all parts of a model below the parts that hold them, deeper parts before
shallower ones.
-/

namespace SolidScript.Part

variable {R : Type}

/-- One item of an agenda: a part to enter or to leave. -/
inductive Visit (R : Type) where
  | enter (part : Part R)
  | leave (part : Part R)

/-- Entering a part costs at most two steps for each part in it. -/
def Visit.weight : Visit R → Nat
  | enter part => 2 * part.size
  | leave _ => 1

def agendaWeight (agenda : List (Visit R)) : Nat := (agenda.map Visit.weight).foldr (· + ·) 0

@[simp] theorem agendaWeight_cons (visit : Visit R) (rest : List (Visit R)) :
    agendaWeight (visit :: rest) = visit.weight + agendaWeight rest := rfl

/-- The agenda after entering a part: the parts below it, then the part itself to leave. -/
def expand (below : List (Part R)) (part : Part R) (rest : List (Visit R)) : List (Visit R) :=
  below.map .enter ++ .leave part :: rest

theorem agendaWeight_leave (part : Part R) (rest : List (Visit R)) :
    agendaWeight rest < agendaWeight (.leave part :: rest) := by
  simp [Visit.weight]

theorem agendaWeight_enter (parts : List (Part R)) (rest : List (Visit R)) :
    agendaWeight (parts.map Visit.enter ++ rest) = 2 * sizeAll parts + agendaWeight rest := by
  induction parts with
  | nil => simp
  | cons part parts ih =>
    simp only [List.map_cons, List.cons_append, agendaWeight_cons, ih, Visit.weight, sizeAll_cons]
    omega

/-- Parts that are among those of the part, or some of them, are lighter than the part. -/
theorem agendaWeight_expand {below : List (Part R)} {part : Part R} {rest : List (Visit R)}
    (h : sizeAll below ≤ sizeAll part.parts) :
    agendaWeight (expand below part rest) < agendaWeight (.enter part :: rest) := by
  simp only [expand, agendaWeight_enter, agendaWeight_cons, Visit.weight, size_eq part]
  omega

theorem sizeAll_filter_le (keep : Part R → Bool) (parts : List (Part R)) :
    sizeAll (parts.filter keep) ≤ sizeAll parts := by
  induction parts with
  | nil => simp
  | cons part rest ih =>
    rw [List.filter_cons]
    split <;> simp only [sizeAll_cons] <;> omega

/-- The parts below a part, those of greater depth first and equal depths in order. -/
def byDepth (depth : Part R → Nat) (parts : List (Part R)) : List (Part R) :=
  parts.mergeSort fun a b => depth b ≤ depth a

theorem sizeAll_byDepth (depth : Part R → Nat) (parts : List (Part R)) :
    sizeAll (byDepth depth parts) = sizeAll parts :=
  sizeAll_perm (List.mergeSort_perm parts _)

/-- The walk: parts are listed when they are left. -/
def listFrom (depth : Part R → Nat) : List (Visit R) → List (Part R) → List (Part R)
  | [], done => done.reverse
  | .leave part :: rest, done => listFrom depth rest (part :: done)
  | .enter part :: rest, done => listFrom depth (expand (byDepth depth part.parts) part rest) done
termination_by agenda => agendaWeight agenda
decreasing_by
  · exact agendaWeight_leave part rest
  · exact agendaWeight_expand (Nat.le_of_eq (sizeAll_byDepth depth part.parts))

/-- Every part in each of its places, after all parts below it; of the parts of one part those
of greater depth come first. -/
def deepestFirst (depth : Part R → Nat) (part : Part R) : List (Part R) :=
  listFrom depth [.enter part] []

end SolidScript.Part
