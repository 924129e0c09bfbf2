import SolidScript.Proofs.Group.Members

/-!
# Bracketing

Parts can be put into a group at once, or bracket by bracket with groups of the same kind; in a
hull, brackets may be unions as well. Built from the inside out, the outcome is the same: the group
of all parts from left to right (`Grouping.build_group_eq`), and building it again from its own
parts changes nothing.
-/

namespace SolidScript

open SolidScript.Part

variable {R : Type}

/-- Parts in brackets: a part as it is, or a group of a kind over what is in the bracket. -/
inductive Grouping (R : Type) where
  | leaf (part : Part R)
  | group (kind : Kind) (inner : List (Grouping R))

namespace Grouping

mutual

def leaves : Grouping R → List (Part R)
  | leaf part => [part]
  | group _ inner => leavesAll inner

def leavesAll : List (Grouping R) → List (Part R)
  | [] => []
  | first :: rest => first.leaves ++ leavesAll rest

end

mutual

/-- The part that the brackets stand for, built from the inside out. -/
def build : Grouping R → Build (Part R)
  | leaf part => pure part
  | group kind inner => do Build.groupAs .group kind (← buildAll inner)

def buildAll : List (Grouping R) → Build (List (Part R))
  | [] => pure []
  | first :: rest => do
    let part ← first.build
    let parts ← buildAll rest
    pure (part :: parts)

end

/-- All brackets are groups of one kind; in a hull they may be unions as well. -/
inductive FitsIn (outer : Kind) : Grouping R → Prop where
  | leaf (part : Part R) : FitsIn outer (leaf part)
  | group {kind : Kind} {inner : List (Grouping R)} :
    kind = outer ∨ outer = .hull ∧ kind = .union →
    (∀ grouping ∈ inner, FitsIn outer grouping) → FitsIn outer (group kind inner)

/-! ## The members of brackets -/

/-- A bracket is absorbed, and so is all that it has absorbed itself. -/
theorem absorbs_of_fits {outer kind : Kind} (h : kind = outer ∨ outer = .hull ∧ kind = .union)
    {inner : Kind} (habsorbs : kind.absorbs inner) : outer.absorbs inner := by
  rcases h with rfl | ⟨rfl, rfl⟩
  · exact habsorbs
  · rw [← beq_iff_eq.mp habsorbs]
    rfl

theorem membersOf_buildAll {outer : Kind} {inner : List (Grouping R)}
    (h : ∀ grouping ∈ inner, ∀ next,
      (grouping.build next).1.members outer = membersOf outer grouping.leaves) (next : Nat) :
    membersOf outer (buildAll inner next).1 = membersOf outer (leavesAll inner) := by
  induction inner generalizing next with
  | nil => rfl
  | cons first rest ih =>
    obtain ⟨hfirst, hrest⟩ := List.forall_mem_cons.mp h
    show membersOf outer ((first.build next).1 :: (buildAll rest (first.build next).2).1) =
      membersOf outer (first.leaves ++ leavesAll rest)
    rw [membersOf, hfirst, ih hrest, membersOf_append]

/-- Brackets contribute to a group what the parts in them contribute. -/
theorem members_build {outer : Kind} {grouping : Grouping R} (h : grouping.FitsIn outer) :
    ∀ next, (grouping.build next).1.members outer = membersOf outer grouping.leaves := by
  induction h with
  | leaf part => exact fun _ => (membersOf_singleton outer part).symm
  | @group kind inner hkind _ ih =>
    intro next
    have habsorbs : ∀ inner, kind.absorbs inner → outer.absorbs inner := fun _ =>
      absorbs_of_fits hkind
    have hbracket : (Part.mk (buildAll inner next).2 (Head.ofKind kind [] ∅ .group)
        (membersOf kind (buildAll inner next).1)).isAbsorbedBy outer :=
      isAbsorbedBy_iff.mpr
        ⟨habsorbs kind kind.absorbs_self, Head.hasDefaultLabel_ofKind kind _ _ _⟩
    show (Part.mk (buildAll inner next).2 (Head.ofKind kind [] ∅ .group)
      (membersOf kind (buildAll inner next).1)).members outer = membersOf outer (leavesAll inner)
    rw [members_of_absorbed hbracket]
    show membersOf outer (membersOf kind (buildAll inner next).1) = _
    rw [membersOf_membersOf_of_absorbs habsorbs, membersOf_buildAll ih]

/-- Brackets of one kind, or with unions in a hull, do not matter: built from the inside out, they
come to the group of all parts from left to right, over the same parts. Nothing in it would be taken
in again, and the group of its parts is the same again. -/
theorem build_group_eq {outer : Kind} {inner : List (Grouping R)}
    (h : ∀ grouping ∈ inner, grouping.FitsIn outer) (next flat again : Nat) :
    let nested := ((group outer inner).build next).1
    let group := (Build.groupAs .group outer (leavesAll inner) flat).1
    nested = { group with serial := nested.serial } ∧
      (∀ part ∈ nested.parts, ¬part.isAbsorbedBy outer) ∧
      (Build.groupAs .group outer nested.parts again).1 = { nested with serial := again } := by
  have hparts := membersOf_buildAll (fun grouping hmem => members_build (h grouping hmem)) next
  refine ⟨?_, fun _ => not_absorbed_of_mem_membersOf, ?_⟩
  · show Part.mk _ _ (membersOf outer (buildAll inner next).1) = _
    rw [hparts]
    rfl
  · show Part.mk _ _ (membersOf outer (membersOf outer (buildAll inner next).1)) = _
    rw [membersOf_membersOf]
    rfl

/-! ## A table in brackets -/

def post : Part Float := ⟨0, .ofKind .cylinder [] ∅ .plain, []⟩

def knob : Part Float := ⟨1, .ofKind .sphere [] ∅ .plain, []⟩

/-- Two posts, in a union that no bracket stands for. -/
def legs : Part Float := ⟨2, .ofKind .union [] ∅ .group, [post, post]⟩

def table : List (Grouping Float) :=
  [group .union [leaf post, group .hull [leaf knob, leaf legs]], group .union [], leaf knob]

theorem fitsIn_table : ∀ grouping ∈ table, grouping.FitsIn .hull := by
  have hknob : (group .hull [leaf knob, leaf legs]).FitsIn .hull := .group (.inl rfl) <| by
    simp only [List.forall_mem_cons]
    exact ⟨.leaf knob, .leaf legs, List.forall_mem_nil _⟩
  have hpost : (group .union [leaf post, group .hull [leaf knob, leaf legs]]).FitsIn .hull :=
    .group (.inr ⟨rfl, rfl⟩) <| by
      simp only [List.forall_mem_cons]
      exact ⟨.leaf post, hknob, List.forall_mem_nil _⟩
  simp only [table, List.forall_mem_cons]
  exact ⟨hpost, .group (.inr ⟨rfl, rfl⟩) (List.forall_mem_nil _), .leaf knob, List.forall_mem_nil _⟩

/-- The hull of a table in brackets is that of its parts, those of the legs among them. -/
theorem build_table_eq :
    (∀ grouping ∈ table, grouping.FitsIn .hull) ∧
      ((group .hull table).build 3).1.parts = [post, knob, post, post, knob] ∧
      ((group .hull table).build 3).1 =
        { (Build.groupAs .group .hull [post, knob, legs, knob] 3).1 with serial := 6 } := by
  obtain ⟨hnested, -, -⟩ := build_group_eq fitsIn_table 3 3 7
  exact ⟨fitsIn_table, rfl, hnested⟩

end Grouping

end SolidScript
