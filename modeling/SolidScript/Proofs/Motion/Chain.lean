import SolidScript.Proofs.Motion.Follow

/-!
# Following a path that follows another

A path may itself have followed another path. A part that follows the outcome goes through the
motions of both, and comes out as if it had followed one path after the other (`replay_followed`).

What needs care are the unions of copies: they take in the members of their parts when the first
path is put into them, and again when the part is. A path that is not forgotten in such a union
stands in it by members that can be replayed one by one, so it does not matter when they are taken
in (`membersOf_replay`).
-/

namespace SolidScript

open SolidScript.Part

variable {R : Type} {target path other : Part R}

namespace Part

theorem followed_of_not_isPath (h : ¬other.head.isPath) : followed path other = pure path := by
  rw [followed_eq]
  cases hrole : other.head.role with
  | plain => rfl
  | group => rfl
  | motion => exact absurd (by rw [Head.isPath, hrole]; rfl) h
  | copies => exact absurd (by rw [Head.isPath, hrole]; rfl) h

theorem head_followed (h : other.head.isPath) (next : Nat) :
    (followed path other next).1.head = other.head := by
  rw [followed_eq]
  rcases role_of_isPath h with hrole | hrole
  · rw [hrole]
    rfl
  · rw [hrole]
    rfl

/-- Composed, and not forgotten in a union with a copy. -/
def StaysWhole (part : Part R) : Prop := part.Composed ∧ ¬part.IsForgotten

/-- It does not matter whether the members of paths are taken in before a replay or after it. -/
theorem membersOf_replay (target : Part R) {paths : List (Part R)}
    (h : ∀ path ∈ paths, path.StaysWhole) :
    membersOf .union ((membersOf .union paths).map (replay target)) =
      membersOf .union (paths.map (replay target)) := by
  induction paths with
  | nil => rfl
  | cons path rest ih =>
    obtain ⟨⟨hpath, hstays⟩, hrest⟩ := List.forall_mem_cons.mp h
    have hmembers := (members_replay_iff target hpath).mpr fun hforgets => absurd hforgets hstays
    rw [membersOf, List.map_append, membersOf_append, hmembers, ih hrest, List.map_cons, membersOf]

end Part

namespace Build

theorem yields_followed_whole (hpath : path.StaysWhole) (hother : other.Composed) :
    Yields StaysWhole (followed path other) := by
  intro next
  obtain ⟨hcomposed, -⟩ := yields_followed hpath.1 other hother next
  refine ⟨hcomposed, ?_⟩
  by_cases h : other.head.isPath
  · refine not_forgotten_of_isPath hcomposed ?_
    rwa [head_followed h]
  · rw [followed_of_not_isPath h]
    exact hpath.2

theorem yields_followedAll_whole {others : List (Part R)} (hpath : path.StaysWhole)
    (hothers : ∀ other ∈ others, other.Composed) :
    Yields (fun parts => ∀ part ∈ parts, part.StaysWhole) (followedAll path others) := by
  have hall : Yields (List.Forall₂ (fun _ part => StaysWhole part) others)
      (followedAll path others) :=
    yields_followedAll fun other hmem => yields_followed_whole hpath (hothers other hmem)
  exact hall.mono fun _ => forall_mem_of_along

end Build

namespace Part

/-- A replay along a path that has followed another path is a replay along the one and then along
the other, if the path stays whole. -/
theorem replay_followed (target : Part R) (hpath : path.StaysWhole) (other : Part R) :
    other.Composed → ∀ next,
      target.replay (followed path other next).1 = (target.replay path).replay other := by
  induction other using Part.induction with
  | step other ih =>
    intro hother next
    have hall := map_followedAll (fun inner hmem => ih inner hmem (hother.inner hmem)) next
    have hwhole := Build.yields_followedAll_whole hpath (fun _ hmem => hother.inner hmem) next
    by_cases h : other.head.isPath
    · rcases role_of_isPath h with hrole | hrole
      · rw [replay_motion hrole, ← hall, followed_eq, hrole]
        exact replay_motion hrole
      · obtain ⟨hkind, -⟩ := hother.copies hrole
        have hparts := membersOf_replay target hwhole
        rw [← hkind] at hparts
        rw [replay_copies hrole, ← hall, followed_eq, hrole, ← hparts]
        exact replay_copies hrole
    · rw [followed_of_not_isPath h, replay_of_not_isPath h]
      rfl

end Part

end SolidScript
