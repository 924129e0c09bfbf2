import Mathlib.Data.List.Basic
import SolidScript.Proofs.Heap.Builder

/-!
# Parts without numbers and roles

Two parts are structurally identical when they are equal apart from serial numbers and from how
they were composed: kinds, arguments and labels are the same, and so are the parts below, in order
(`Part.bare`). What a group takes in can be told from bare parts (`bare_members`), and what a part
that follows a path comes to can be told from the bare part (`bare_followed`).
-/

namespace SolidScript

open SolidScript.Part

variable {R : Type}

namespace Head

def bare (head : Head R) : Head R := { head with role := .plain }

end Head

namespace Part

def bareRule (head : Head R) (parts : List (Part R)) : Part R := ⟨0, head.bare, parts⟩

/-- The part without serial numbers and roles. -/
def bare (part : Part R) : Part R := part.fold bareRule

theorem bare_eq (part : Part R) : part.bare = bareRule part.head (part.parts.map bare) :=
  fold_eq _ _

theorem bare_mk (serial : Nat) (head : Head R) (parts : List (Part R)) :
    (Part.mk serial head parts).bare = bareRule head (parts.map bare) := bare_eq _

@[simp] theorem isAbsorbedBy_bareRule (outer : Kind) (part : Part R) (parts : List (Part R)) :
    (bareRule part.head parts).isAbsorbedBy outer = part.isAbsorbedBy outer := rfl

theorem isAbsorbedBy_bare (outer : Kind) (part : Part R) :
    part.bare.isAbsorbedBy outer = part.isAbsorbedBy outer := by
  rw [bare_eq, isAbsorbedBy_bareRule]

theorem bare_members (outer : Kind) (part : Part R) :
    (part.members outer).map bare = part.bare.members outer := by
  induction part using Part.induction with
  | step part ih =>
    rw [members_eq, members_eq outer part.bare, isAbsorbedBy_bare]
    split
    · rw [bare_eq]
      show (part.parts.flatMap (members outer)).map bare =
        (part.parts.map bare).flatMap (members outer)
      rw [List.map_flatMap, List.flatMap_map]
      exact List.flatMap_congr ih
    · rfl

theorem bare_membersOf (outer : Kind) (parts : List (Part R)) :
    (membersOf outer parts).map bare = membersOf outer (parts.map bare) := by
  rw [membersOf_eq_flatMap, membersOf_eq_flatMap, List.map_flatMap, List.flatMap_map]
  exact List.flatMap_congr fun part _ => bare_members outer part

/-! ## Replayed motions -/

def replayRule (target : Part R) (head : Head R) (parts : List (Part R)) : Part R :=
  match head.role with
  | .motion => bareRule head parts
  | .copies => bareRule head (membersOf head.kind parts)
  | .plain | .group => target

/-- The motions of a path around a target. -/
def replay (target path : Part R) : Part R := path.fold (replayRule target)

theorem replay_eq (target path : Part R) :
    target.replay path = replayRule target path.head (path.parts.map (replay target)) := fold_eq _ _

/-- What a followed path comes to, path by path, the followed paths come to in order. -/
theorem map_followedAll {α : Type} {f g : Part R → α} {target : Part R} {paths : List (Part R)}
    (h : ∀ path ∈ paths, ∀ next, f (followed target path next).1 = g path) (next : Nat) :
    (followedAll target paths next).1.map f = paths.map g := by
  induction paths generalizing next with
  | nil => rfl
  | cons path rest ih =>
    obtain ⟨hfirst, hothers⟩ := List.forall_mem_cons.mp h
    have hrest := ih hothers (followed target path next).2
    show f (followed target path next).1 ::
      (followedAll target rest (followed target path next).2).1.map f = _
    rw [hfirst, hrest, List.map_cons]

/-- Following a path gives, without numbers and roles, the motions of the path around the target. -/
theorem bare_followed (target path : Part R) (next : Nat) :
    (followed target path next).1.bare = target.bare.replay path := by
  induction path using Part.induction generalizing next with
  | step path ih =>
    have hall := map_followedAll ih next
    rw [followed_eq, replay_eq, replayRule]
    cases hrole : path.head.role with
    | motion =>
      show (Part.mk _ path.head (followedAll target path.parts next).1).bare = _
      rw [bare_mk, hall]
    | copies =>
      show (Part.mk _ path.head (membersOf _ (followedAll target path.parts next).1)).bare = _
      rw [bare_mk, bare_membersOf, hall]
    | plain => rfl
    | group => rfl

end Part

end SolidScript
