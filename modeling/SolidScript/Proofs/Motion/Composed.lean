import Mathlib.Data.List.Forall2
import SolidScript.Proofs.Motion.Bare
import SolidScript.Proofs.Motion.Stack

/-!
# What roles say

The role of a part says how it was composed, and every builder composes parts as their roles say
(`Builder.composed`). A motion stands around one part, and the union of a part and its moved copy
holds that motion and nothing that it would have taken in.
-/

namespace SolidScript

open SolidScript.Part Space

variable {R : Type}

namespace Head

/-- What a role says about a part with this head over some parts. -/
def Fits (head : Head R) (parts : List (Part R)) : Prop :=
  match head.role with
  | .plain | .group => True
  | .motion => head.kind ∈ Kind.motions ∧ ∃ inner, parts = [inner]
  | .copies => head.kind = .union ∧ (∀ inner ∈ parts, ¬inner.isAbsorbedBy .union) ∧
      ∃ inner ∈ parts, inner.head.role = .motion

theorem fits_motion {head : Head R} {parts : List (Part R)} (hrole : head.role = .motion) :
    head.Fits parts ↔ head.kind ∈ Kind.motions ∧ ∃ inner, parts = [inner] := by
  unfold Fits
  rw [hrole]

theorem fits_copies {head : Head R} {parts : List (Part R)} (hrole : head.role = .copies) :
    head.Fits parts ↔
      head.kind = .union ∧ (∀ inner ∈ parts, ¬inner.isAbsorbedBy .union) ∧
        ∃ inner ∈ parts, inner.head.role = .motion := by
  unfold Fits
  rw [hrole]

end Head

namespace Part

/-- All parts within a part are composed as their roles say. -/
def Composed (part : Part R) : Prop := ∀ inner, Within inner part → inner.head.Fits inner.parts

theorem Composed.fits {part : Part R} (h : part.Composed) : part.head.Fits part.parts :=
  h part .self

theorem Composed.motion {part : Part R} (h : part.Composed) (hrole : part.head.role = .motion) :
    part.head.kind ∈ Kind.motions ∧ ∃ inner, part.parts = [inner] :=
  (Head.fits_motion hrole).mp h.fits

theorem Composed.copies {part : Part R} (h : part.Composed) (hrole : part.head.role = .copies) :
    part.head.kind = .union ∧ (∀ inner ∈ part.parts, ¬inner.isAbsorbedBy .union) ∧
      ∃ inner ∈ part.parts, inner.head.role = .motion :=
  (Head.fits_copies hrole).mp h.fits

theorem Composed.within {part inner : Part R} (h : part.Composed) (hw : Within inner part) :
    inner.Composed := fun other hother => h other (hother.trans hw)

theorem Composed.inner {part inner : Part R} (h : part.Composed) (hmem : inner ∈ part.parts) :
    inner.Composed := h.within (.of_mem hmem)

theorem composed_mk {serial : Nat} {head : Head R} {parts : List (Part R)} (h : head.Fits parts)
    (hparts : ∀ part ∈ parts, part.Composed) : (Part.mk serial head parts).Composed := by
  intro inner hinner
  cases hinner with
  | self => exact h
  | inside hmem hw => exact hparts _ hmem inner hw

theorem not_absorbed_of_mem_motions {part : Part R} (h : part.head.kind ∈ Kind.motions) :
    ¬part.isAbsorbedBy .union := by
  have hkinds : ∀ kind ∈ Kind.motions, Kind.union.absorbs kind = false := by decide
  unfold isAbsorbedBy
  rw [hkinds _ h, Bool.false_and]
  exact Bool.false_ne_true

theorem Composed.not_absorbed {part : Part R} (h : part.Composed)
    (hrole : part.head.role = .motion) : ¬part.isAbsorbedBy .union :=
  not_absorbed_of_mem_motions (h.motion hrole).1

theorem composed_of_mem_membersOf {outer : Kind} {parts : List (Part R)}
    (h : ∀ part ∈ parts, part.Composed) : ∀ inner ∈ membersOf outer parts, inner.Composed := by
  intro inner hmem
  obtain ⟨part, hpart, hw⟩ := within_of_mem_membersOf hmem
  exact (h part hpart).within hw

end Part

namespace Build

variable {α β : Type}

/-- Whatever the next serial number is, a construction gives something of a kind. -/
def Yields (P : α → Prop) (b : Build α) : Prop := ∀ next, P (b next).1

theorem Yields.bind {P : α → Prop} {Q : β → Prop} {b : Build α} {f : α → Build β}
    (h : Yields P b) (h' : ∀ a, P a → Yields Q (f a)) : Yields Q (b >>= f) :=
  fun next => h' _ (h next) _

theorem Yields.pure {P : α → Prop} {a : α} (h : P a) : Yields P (Pure.pure a) := fun _ => h

theorem Yields.mono {P Q : α → Prop} {b : Build α} (h : Yields P b) (himp : ∀ a, P a → Q a) :
    Yields Q b := fun next => himp _ (h next)

theorem yields_part {head : Head R} {parts : List (Part R)} (h : head.Fits parts)
    (hparts : ∀ part ∈ parts, part.Composed) : Yields Composed (part head parts) :=
  fun _ => composed_mk h hparts

theorem yields_copies {part copy : Part R} (hpart : part.Composed) (hcopy : copy.Composed)
    (hrole : copy.head.role = .motion) : Yields Composed (copies part copy) := by
  have hboth : ∀ inner ∈ [part, copy], inner.Composed := by
    intro inner hmem
    rcases List.mem_cons.mp hmem with rfl | hmem
    · exact hpart
    · exact List.mem_singleton.mp hmem ▸ hcopy
  refine yields_part ⟨rfl, fun _ => not_absorbed_of_mem_membersOf, copy, ?_, hrole⟩
    (composed_of_mem_membersOf hboth)
  exact mem_membersOf (hcopy.not_absorbed hrole) (List.mem_cons_of_mem _ List.mem_cons_self)

/-! ## Motions -/

section Motions

variable {part : Part R} (hpart : part.Composed)

include hpart

theorem yields_moved {kind : Kind} (hkind : kind ∈ Kind.motions) (args : List (Value R))
    (named : Named (Value R)) : Yields Composed (part.moved kind args named) :=
  yields_part ⟨hkind, part, rfl⟩ (List.forall_mem_singleton.mpr hpart)

variable [Zero R] [Neg R] [BEq R]

theorem yields_moveFrom (centroid : Vec3 R) (move : Move R) :
    Yields Composed (part.moveFrom centroid move) := by
  refine moveFrom_property (fun inner hinner serial head hrole hkind => ?_) hpart centroid move
  refine composed_mk ?_ (List.forall_mem_singleton.mpr hinner)
  exact (Head.fits_motion hrole).mpr ⟨hkind, inner, rfl⟩

theorem yields_applyFrom (centroid : Vec3 R) (motion : Motion R) :
    Yields Composed (part.applyFrom centroid motion) := by
  intro next
  have hmoved := yields_moveFrom hpart centroid motion.move next
  rw [applyFrom_eq]
  dsimp only
  split
  · rename_i hcopies
    have hne := bne_iff_ne.mp ((Bool.and_eq_true _ _).mp hcopies).2
    have hmoves : ¬motion.move.isIdle centroid := by
      intro hidle
      rw [part.moveFrom_of_isIdle hidle] at hne
      exact hne rfl
    exact yields_copies hpart hmoved (part.isMotionFrom_moveFrom hmoves next).1 _
  · exact hmoved

end Motions

/-! ## Replayed motions of composed parts -/

/-- A part that was built along a path: it is composed, and it has the head of the path if the path
ends in a motion. -/
def IsAlong (path part : Part R) : Prop :=
  part.Composed ∧ (path.head.role = .motion → part.head = path.head)

theorem yields_followedAll {along : Part R → Part R → Prop} {target : Part R}
    {paths : List (Part R)} (h : ∀ path ∈ paths, Yields (along path) (followed target path)) :
    Yields (List.Forall₂ along paths) (followedAll target paths) := by
  induction paths with
  | nil => exact .pure .nil
  | cons path rest ih =>
    rw [followedAll]
    obtain ⟨hpath, hrest⟩ := List.forall_mem_cons.mp h
    refine hpath.bind fun first hfirst => (ih hrest).bind fun others hothers => ?_
    exact .pure (.cons hfirst hothers)

theorem forall_mem_of_along {P : Part R → Prop} {paths parts : List (Part R)}
    (h : List.Forall₂ (fun _ part => P part) paths parts) : ∀ part ∈ parts, P part := by
  induction h with
  | nil => exact List.forall_mem_nil _
  | cons hfirst _ ih => exact List.forall_mem_cons.mpr ⟨hfirst, ih⟩

theorem composed_of_along {paths parts : List (Part R)} (h : List.Forall₂ IsAlong paths parts) :
    ∀ part ∈ parts, part.Composed := forall_mem_of_along (h.imp fun _ _ halong => halong.1)

theorem exists_along {paths parts : List (Part R)} (h : List.Forall₂ IsAlong paths parts)
    {path : Part R} (hpath : path ∈ paths) : ∃ part ∈ parts, IsAlong path part := by
  induction h with
  | nil => exact absurd hpath List.not_mem_nil
  | cons hfirst _ ih =>
    rcases List.mem_cons.mp hpath with rfl | hpath
    · exact ⟨_, List.mem_cons_self, hfirst⟩
    · obtain ⟨part, hmem, halong⟩ := ih hpath
      exact ⟨part, List.mem_cons_of_mem _ hmem, halong⟩

theorem fits_motion_along {path : Part R} (hpath : path.Composed)
    (hrole : path.head.role = .motion) {parts : List (Part R)}
    (h : List.Forall₂ IsAlong path.parts parts) : path.head.Fits parts := by
  obtain ⟨hkind, inner, hinner⟩ := hpath.motion hrole
  rw [hinner] at h
  cases h with
  | cons _ hrest =>
    cases hrest
    exact (Head.fits_motion hrole).mpr ⟨hkind, _, rfl⟩

theorem fits_copies_along {path : Part R} (hpath : path.Composed)
    (hrole : path.head.role = .copies) {parts : List (Part R)}
    (h : List.Forall₂ IsAlong path.parts parts) :
    path.head.Fits (membersOf path.head.kind parts) := by
  obtain ⟨hkind, -, moved, hmem, hmoved⟩ := hpath.copies hrole
  obtain ⟨part, hpart, hcomposed, hhead⟩ := exists_along h hmem
  have hmotion : part.head.role = .motion := hhead hmoved ▸ hmoved
  rw [Head.fits_copies hrole, hkind]
  refine ⟨rfl, fun _ => not_absorbed_of_mem_membersOf, part, ?_, hmotion⟩
  exact mem_membersOf (hcomposed.not_absorbed hmotion) hpart

theorem yields_followed {target : Part R} (htarget : target.Composed) (path : Part R) :
    path.Composed → Yields (IsAlong path) (followed target path) := by
  induction path using Part.induction with
  | step path ih =>
    intro hpath
    have hall := yields_followedAll fun inner hmem => ih inner hmem (hpath.inner hmem)
    rw [followed_eq]
    cases hrole : path.head.role with
    | motion =>
      refine hall.bind fun parts hparts _ => ⟨?_, fun _ => rfl⟩
      exact composed_mk (fits_motion_along hpath hrole hparts) (composed_of_along hparts)
    | copies =>
      refine hall.bind fun parts hparts _ => ⟨?_, fun _ => rfl⟩
      exact composed_mk (fits_copies_along hpath hrole hparts)
        (composed_of_mem_membersOf (composed_of_along hparts))
    | plain => exact .pure ⟨htarget, fun hmotion => by cases hrole.symm.trans hmotion⟩
    | group => exact .pure ⟨htarget, fun hmotion => by cases hrole.symm.trans hmotion⟩

end Build

/-! ## All builders -/

theorem Builder.composed [Zero R] [Neg R] [BEq R] {given : Set (Part R)}
    {construction : Build (Part R)} (h : Builder given construction)
    (hgiven : ∀ part ∈ given, part.Composed) : Build.Yields Composed construction := by
  cases h with
  | plain kind args named hparts =>
    exact Build.yields_part trivial fun part hmem => hgiven part (hparts part hmem)
  | group _ hparts =>
    refine Build.yields_part trivial (composed_of_mem_membersOf fun part hmem => ?_)
    exact hgiven part (hparts part hmem)
  | relabel label hpart =>
    have hcomposed := hgiven _ hpart
    exact Build.yields_part hcomposed.fits fun inner hmem => hcomposed.inner hmem
  | move centroid move hpart => exact Build.yields_moveFrom (hgiven _ hpart) centroid move
  | apply centroid motion hpart => exact Build.yields_applyFrom (hgiven _ hpart) centroid motion
  | lift named hpart => exact Build.yields_moved (hgiven _ hpart) (by decide) _ _
  | sweep named hpart => exact Build.yields_moved (hgiven _ hpart) (by decide) _ _
  | follow hpart hpath =>
    exact (Build.yields_followed (hgiven _ hpart) _ (hgiven _ hpath)).mono fun _ h => h.1

end SolidScript
