import SolidScript.Proofs.Extent.Grouped

/-!
# The smallest box around parts

A part without a rule of its own has the smallest box around the boxes of its parts, whatever its
kind is and in whatever order they stand (`Part.smallestAround_points_and_parts`). This is the same
smallest box as that around points, although that one starts with a box of its own and this one with
the box of the first part. Without points or parts there is no smallest box, and the box is the
origin.
-/

namespace SolidScript

open Space

namespace Part

variable {part : Part Float} {parts : List (Part Float)}

/-- Every part has an extent, with a box that is not inverted and nowhere undefined. -/
def HaveProperBoxes (parts : List (Part Float)) : Prop :=
  ∀ part ∈ parts, ∃ extent, part.extent = .ok extent ∧ extent.box.IsProper

def regionOf (parts : List (Part Float)) : Set (Vec3 Float) :=
  {p | ∃ part ∈ parts, ∃ extent, part.extent = .ok extent ∧ p ∈ extent.box.region}

theorem regionOf_subset_iff {extents : List (Extent Float)} {outer : Box Float}
    (h : Fault.collect (parts.map extent) = .ok extents) :
    regionOf parts ⊆ outer.region ↔ ∀ extent ∈ extents, extent.box.region ⊆ outer.region := by
  constructor
  · intro hsub extent hmem p hp
    obtain ⟨part, hpart, hextent⟩ := Fault.exists_of_mem_collect h extent hmem
    exact hsub ⟨part, hpart, extent, hextent, hp⟩
  · rintro hsub p ⟨part, hpart, extent, hextent, hp⟩
    obtain ⟨extent', hmem, hextent'⟩ := Fault.exists_of_collect h part hpart
    obtain rfl : extent = extent' := Except.ok.inj (hextent.symm.trans hextent')
    exact hsub extent hmem hp

theorem isSmallestAround_extent (hkind : part.head.kind ∉ Kind.ruled) (hne : part.parts ≠ [])
    (hboxes : HaveProperBoxes part.parts) :
    ∃ extent, part.extent = .ok extent ∧ extent.box.IsSmallestAround (regionOf part.parts) := by
  obtain ⟨extents, hextents⟩ := Fault.exists_collect fun inner hmem =>
    (hboxes inner hmem).imp fun _ h => h.1
  have hproper : ∀ extent ∈ extents, extent.box.IsProper := by
    intro extent hmem
    obtain ⟨inner, hinner, hok⟩ := Fault.exists_of_mem_collect hextents extent hmem
    obtain ⟨extent', hok', hbox⟩ := hboxes inner hinner
    obtain rfl : extent = extent' := Except.ok.inj (hok.symm.trans hok')
    exact hbox
  cases extents with
  | nil => exact absurd (List.map_eq_nil_iff.mp (Fault.eq_map_of_collect hextents)) hne
  | cons first rest =>
    have hextent : part.extent =
        .ok (.ofBox ((rest.map Extent.box).foldl Box.union first.box)) := by
      rw [extent_of_unruled hkind, bound?, hextents]
      show Except.ok ((Extent.bound? (first :: rest)).elim _ _) = _
      rw [Extent.bound?_cons]
      rfl
    refine ⟨_, hextent, Box.isSmallestAround_foldl_union ?_ fun outer => ?_⟩
    · rw [← List.map_cons]
      exact List.forall_mem_map.mpr hproper
    · rw [← List.map_cons, List.forall_mem_map]
      exact regionOf_subset_iff hextents

theorem regionOf_congr {others : List (Part Float)} (h : ∀ part, part ∈ others ↔ part ∈ parts) :
    regionOf others = regionOf parts := by
  simp only [regionOf, h]

theorem nonempty_regionOf (hne : parts ≠ []) (hboxes : HaveProperBoxes parts) :
    (regionOf parts).Nonempty := by
  obtain ⟨part, hpart⟩ := List.exists_mem_of_ne_nil parts hne
  obtain ⟨extent, hextent, hbox⟩ := hboxes part hpart
  exact ⟨extent.box.min, part, hpart, extent, hextent, Box.mem_region_iff.mpr ⟨hbox.left, hbox⟩⟩

/-- The box around points is the smallest one, if there are points and no coordinate is undefined.
The box of a part without a rule of its own is the smallest one around the boxes of its parts, if it
has parts and their boxes are proper. Neither depends on the order of the points or of the parts, or
on how often one occurs. Two portions of the points have boxes that join to the box of all. -/
theorem smallestAround_points_and_parts :
    (∀ points : List (Vec3 Float), points ≠ [] → (∀ p ∈ points, p.IsNumber) →
      (Box.ofPoints points).IsSmallestAround {p | p ∈ points} ∧
        (∀ others, (∀ p, p ∈ others ↔ p ∈ points) → Box.ofPoints others == Box.ofPoints points) ∧
        ∀ front rest, front ++ rest = points → front ≠ [] → rest ≠ [] →
          Box.ofPoints points = (Box.ofPoints front).union (Box.ofPoints rest)) ∧
      ∀ part : Part Float, part.head.kind ∉ Kind.ruled → part.parts ≠ [] →
        HaveProperBoxes part.parts →
        ∃ extent, part.extent = .ok extent ∧
          extent.box.IsSmallestAround (regionOf part.parts) ∧
          ∀ other : Part Float, other.head.kind ∉ Kind.ruled →
            (∀ inner, inner ∈ other.parts ↔ inner ∈ part.parts) →
            ∃ extent', other.extent = .ok extent' ∧ extent'.box == extent.box := by
  constructor
  · intro points hne hnumber
    have hsmallest := Box.isSmallestAround_ofPoints hne hnumber
    refine ⟨hsmallest, fun others => Box.ofPoints_beq hne hnumber, ?_⟩
    rintro front rest rfl hfront hrest
    exact Box.ofPoints_append hfront hrest hnumber
  · intro part hkind hne hboxes
    obtain ⟨extent, hextent, hsmallest⟩ := isSmallestAround_extent hkind hne hboxes
    refine ⟨extent, hextent, hsmallest, fun other hkind' hparts => ?_⟩
    obtain ⟨inner, hinner⟩ := List.exists_mem_of_ne_nil part.parts hne
    obtain ⟨extent', hextent', hsmallest'⟩ :=
      isSmallestAround_extent hkind' (List.ne_nil_of_mem ((hparts inner).mpr hinner))
        fun inner h => hboxes inner ((hparts inner).mp h)
    rw [regionOf_congr hparts] at hsmallest'
    exact ⟨extent', hextent', hsmallest'.beq hsmallest (nonempty_regionOf hne hboxes)⟩

/-! ## Without an end -/

/-- Two points at infinity, above zeros of both signs. -/
def horizon : List (Vec3 Float) :=
  [⟨0, 2, Number.infinity true⟩, ⟨-0, Number.infinity false, 1⟩]

def shaft : Part Float := ⟨1, .ofKind .cube [.vector ⟨1, 5, Number.infinity false⟩] ∅ .plain, []⟩

/-- A module that is not modelled. -/
def crossed : Part Float := ⟨2, .ofKind (.raw "minkowski") [] ∅ .plain, [plate, shaft]⟩

/-- Another order gives another zero, and boxes that are equal. -/
theorem smallestAround_horizon_and_crossed :
    (∀ p ∈ horizon, p.IsNumber) ∧
      (Box.ofPoints horizon).IsSmallestAround {p | p ∈ horizon} ∧
      Box.ofPoints horizon.reverse ≠ Box.ofPoints horizon ∧
      Box.ofPoints horizon.reverse == Box.ofPoints horizon ∧
      HaveProperBoxes crossed.parts ∧
      ∃ extent, crossed.extent = .ok extent ∧
        extent.box = ⟨0, ⟨4, 5, Number.infinity false⟩⟩ ∧
        extent.box.IsSmallestAround (regionOf crossed.parts) := by
  have hnumber : ∀ p ∈ horizon, p.IsNumber := by decide
  have hboxes : HaveProperBoxes crossed.parts :=
    List.forall_mem_cons.mpr ⟨⟨.ofBox ⟨0, ⟨4, 3, 1⟩⟩, rfl, by decide, by decide, by decide⟩,
      List.forall_mem_singleton.mpr
        ⟨.ofBox ⟨0, ⟨1, 5, Number.infinity false⟩⟩, rfl, by decide, by decide, by decide⟩⟩
  have hcrossed : crossed.extent = .ok (.ofBox ⟨0, ⟨4, 5, Number.infinity false⟩⟩) := rfl
  obtain ⟨hpoints, hreorder, -⟩ :=
    smallestAround_points_and_parts.1 horizon (List.cons_ne_nil _ _) hnumber
  obtain ⟨extent, hextent, hsmallest, -⟩ :=
    smallestAround_points_and_parts.2 crossed (by decide) (List.cons_ne_nil _ _) hboxes
  obtain rfl := Except.ok.inj (hcrossed.symm.trans hextent)
  exact ⟨hnumber, hpoints, by decide, hreorder _ fun p => List.mem_reverse, hboxes, _, hextent, rfl,
    hsmallest⟩

end Part

end SolidScript
