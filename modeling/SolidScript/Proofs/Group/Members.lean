import Mathlib.Data.List.Basic
import SolidScript.Part.Group
import SolidScript.Proofs.Heap.Basic

/-!
# What a group takes in

A group takes in what its parts contribute: a part that is absorbed contributes what its parts
contribute, and any other part stays whole (`membersOf_cons`). Parts that are pending in a list give
the same (`groupAs_eq_takeIn`). So nothing that is taken in would be taken in again
(`not_absorbed_of_mem_membersOf`), and a group that absorbs all that another one absorbs has nothing
left to do in its place (`membersOf_membersOf_of_absorbs`). Taking in loses nothing that stands
within a part that stays whole (`exists_member_iff`).
-/

namespace SolidScript

variable {R : Type}

theorem Kind.absorbs_self (kind : Kind) : kind.absorbs kind := by
  unfold absorbs
  split
  · rfl
  · exact beq_self_eq_true kind

theorem Head.hasDefaultLabel_ofKind (kind : Kind) (args : List (Value R))
    (named : Named (Value R)) (role : Role) :
    (Head.ofKind kind args named role).hasDefaultLabel := by
  unfold hasDefaultLabel ofKind defaultLabel
  by_cases hglyph : kind.isGlyph
  · rw [if_pos hglyph]
  · rw [if_neg hglyph]
    exact beq_self_eq_true kind.name

namespace Part

variable {outer kind : Kind} {part inner : Part R} {parts : List (Part R)}

theorem isAbsorbedBy_iff :
    part.isAbsorbedBy outer ↔ outer.absorbs part.head.kind ∧ part.head.hasDefaultLabel :=
  Bool.and_eq_true_iff

/-- Induction along what a group takes in, which goes on below absorbed parts and ends at others. -/
theorem absorbing_induction (outer : Kind) {motive : Part R → Prop}
    (kept : ∀ part, ¬part.isAbsorbedBy outer → motive part)
    (absorbed : ∀ part, part.isAbsorbedBy outer → (∀ inner ∈ part.parts, motive inner) →
      motive part)
    (part : Part R) : motive part := by
  induction part using Part.induction with
  | step part ih =>
    by_cases h : part.isAbsorbedBy outer
    · exact absorbed part h ih
    · exact kept part h

theorem members_of_not_absorbed (h : ¬part.isAbsorbedBy outer) : part.members outer = [part] := by
  rw [members_eq, if_neg h]

theorem members_of_absorbed (h : part.isAbsorbedBy outer) :
    part.members outer = membersOf outer part.parts := by
  rw [members_eq, if_pos h, membersOf_eq_flatMap]

theorem mem_membersOf_iff :
    inner ∈ membersOf outer parts ↔ ∃ part ∈ parts, inner ∈ part.members outer := by
  rw [membersOf_eq_flatMap, List.mem_flatMap]

theorem mem_membersOf (h : ¬part.isAbsorbedBy outer) (hmem : part ∈ parts) :
    part ∈ membersOf outer parts := by
  refine mem_membersOf_iff.mpr ⟨part, hmem, ?_⟩
  rw [members_of_not_absorbed h]
  exact List.mem_cons_self

theorem membersOf_append (outer : Kind) (front rest : List (Part R)) :
    membersOf outer (front ++ rest) = membersOf outer front ++ membersOf outer rest := by
  rw [membersOf_eq_flatMap, membersOf_eq_flatMap, membersOf_eq_flatMap, List.flatMap_append]

theorem membersOf_singleton (outer : Kind) (part : Part R) :
    membersOf outer [part] = part.members outer := by
  rw [membersOf, membersOf, List.append_nil]

/-- A group takes in pending parts one by one: the first of them stays, or its parts are pending in
its place. -/
theorem membersOf_cons (outer : Kind) (part : Part R) (rest : List (Part R)) :
    membersOf outer (part :: rest) =
      if part.isAbsorbedBy outer then membersOf outer (part.parts ++ rest)
      else part :: membersOf outer rest := by
  rw [membersOf]
  split
  · rename_i h
    rw [members_of_absorbed h, membersOf_append]
  · rename_i h
    rw [members_of_not_absorbed h, List.singleton_append]

/-- By recursion or from a list of pending parts, a group takes in the same. -/
theorem takeIn_eq (outer : Kind) (taken pending : List (Part R)) :
    takeIn outer taken pending = taken ++ membersOf outer pending := by
  induction taken, pending using takeIn.induct outer with
  | case1 taken => rw [takeIn, membersOf, List.append_nil]
  | case2 taken part pending habsorbed ih =>
    rw [takeIn, if_pos habsorbed, ih, membersOf_cons, if_pos habsorbed]
  | case3 taken part pending hkept ih =>
    rw [takeIn, if_neg hkept, ih, membersOf_cons, if_neg hkept, List.append_assoc,
      List.singleton_append]

/-- A group stands over what is taken in while its parts are pending. -/
theorem groupAs_eq_takeIn (role : Role) (kind : Kind) (parts : List (Part R)) :
    Build.groupAs role kind parts = Build.ofKind kind (takeIn kind [] parts) [] ∅ role := by
  rw [takeIn_eq, List.nil_append, Build.groupAs]

/-! ## Taking in again -/

theorem not_absorbed_of_mem_members (h : inner ∈ part.members outer) :
    ¬inner.isAbsorbedBy outer := by
  induction part using absorbing_induction outer with
  | kept part hkept =>
    rw [members_of_not_absorbed hkept] at h
    rwa [List.mem_singleton.mp h]
  | absorbed part habsorbed ih =>
    rw [members_of_absorbed habsorbed] at h
    obtain ⟨child, hchild, hmem⟩ := mem_membersOf_iff.mp h
    exact ih child hchild hmem

theorem not_absorbed_of_mem_membersOf (h : inner ∈ membersOf outer parts) :
    ¬inner.isAbsorbedBy outer := by
  obtain ⟨part, _, hmem⟩ := mem_membersOf_iff.mp h
  exact not_absorbed_of_mem_members hmem

theorem membersOf_of_not_absorbed (h : ∀ part ∈ parts, ¬part.isAbsorbedBy outer) :
    membersOf outer parts = parts := by
  rw [membersOf_eq_flatMap]
  refine (List.flatMap_congr fun part hmem => ?_).trans (List.flatMap_singleton' parts)
  exact members_of_not_absorbed (h part hmem)

/-- A group that absorbs all that another group absorbs takes in the same from its members as from
its parts. -/
theorem membersOf_members_of_absorbs (h : ∀ inner, kind.absorbs inner → outer.absorbs inner)
    (part : Part R) : membersOf outer (part.members kind) = part.members outer := by
  induction part using absorbing_induction kind with
  | kept part hkept => rw [members_of_not_absorbed hkept, membersOf_singleton]
  | absorbed part habsorbed ih =>
    have houter : part.isAbsorbedBy outer :=
      isAbsorbedBy_iff.mpr ((isAbsorbedBy_iff.mp habsorbed).imp_left (h _))
    rw [members_of_absorbed habsorbed, members_of_absorbed houter, membersOf_eq_flatMap,
      membersOf_eq_flatMap, membersOf_eq_flatMap, List.flatMap_assoc]
    refine List.flatMap_congr fun inner hmem => ?_
    rw [← membersOf_eq_flatMap]
    exact ih inner hmem

theorem membersOf_membersOf_of_absorbs (h : ∀ inner, kind.absorbs inner → outer.absorbs inner)
    (parts : List (Part R)) : membersOf outer (membersOf kind parts) = membersOf outer parts := by
  induction parts with
  | nil => rfl
  | cons part rest ih =>
    rw [membersOf, membersOf_append, membersOf_members_of_absorbs h, ih, membersOf]

theorem membersOf_membersOf (outer : Kind) (parts : List (Part R)) :
    membersOf outer (membersOf outer parts) = membersOf outer parts :=
  membersOf_membersOf_of_absorbs (fun _ => id) parts

/-! ## What stands within -/

theorem within_of_mem_members (outer : Kind) (part : Part R) :
    ∀ inner ∈ part.members outer, Within inner part := by
  induction part using absorbing_induction outer with
  | kept part hkept =>
    rw [members_of_not_absorbed hkept]
    exact List.forall_mem_singleton.mpr .self
  | absorbed part habsorbed ih =>
    intro inner hinner
    rw [members_of_absorbed habsorbed] at hinner
    obtain ⟨child, hchild, hmem⟩ := mem_membersOf_iff.mp hinner
    exact .inside hchild (ih child hchild inner hmem)

theorem within_of_mem_membersOf (h : inner ∈ membersOf outer parts) :
    ∃ part ∈ parts, Within inner part := by
  obtain ⟨part, hpart, hmem⟩ := mem_membersOf_iff.mp h
  exact ⟨part, hpart, part.within_of_mem_members outer inner hmem⟩

/-- A part that stays whole stands within a member of every part that it stands within. -/
theorem exists_member_of_within {kept : Part R} (hkept : ¬kept.isAbsorbedBy outer)
    (h : Within kept part) : ∃ member ∈ part.members outer, Within kept member := by
  induction h with
  | self => exact ⟨kept, by rw [members_of_not_absorbed hkept]; exact List.mem_cons_self, .self⟩
  | @inside child part hchild hw ih =>
    by_cases habsorbed : part.isAbsorbedBy outer
    · obtain ⟨member, hmember, hin⟩ := ih
      rw [members_of_absorbed habsorbed]
      exact ⟨member, mem_membersOf_iff.mpr ⟨child, hchild, hmember⟩, hin⟩
    · rw [members_of_not_absorbed habsorbed]
      exact ⟨part, List.mem_cons_self, .inside hchild hw⟩

theorem exists_member_iff :
    (∃ member ∈ part.members outer, Within inner member) ↔
      ∃ kept, ¬kept.isAbsorbedBy outer ∧ Within kept part ∧ Within inner kept := by
  constructor
  · rintro ⟨member, hmember, hw⟩
    exact ⟨member, not_absorbed_of_mem_members hmember,
      part.within_of_mem_members outer member hmember, hw⟩
  · rintro ⟨kept, hkept, hin, hw⟩
    obtain ⟨member, hmember, hin'⟩ := exists_member_of_within hkept hin
    exact ⟨member, hmember, hw.trans hin'⟩

end Part

end SolidScript
