import SolidScript.Proofs.Extent.Rules
import SolidScript.Proofs.Heap.Basic
import SolidScript.Proofs.Space.Exact

/-!
# Boxes are not inverted

Over exact coordinates the box of every part is ordered, whatever its kind and whatever stands below
it, as long as cubes, cylinders and lifted profiles have no negative dimensions
(`Part.ordered_extent`). Each rule makes an ordered box of a profile with an ordered one
(`Head.ordered_extentOf`): motions bound points again, a lift bounds its profile on either side, and
an outline that is moved inwards stops at the center.
-/

namespace SolidScript

open Space SolidScript.Part

variable {R : Type} [Field R] [LinearOrder R] [BEq R] [Coordinate R]

/-- A cube, a cylinder or a lifted profile has no negative dimension. -/
structure Head.HasDimensions (head : Head R) : Prop where
  cube : head.kind = .cube → ∀ size, head.cubeSize = .ok size →
    0 ≤ size.x ∧ 0 ≤ size.y ∧ 0 ≤ size.z
  cylinder : head.kind = .cylinder → ∀ c, Cylinder.ofHead head = .ok c →
    0 ≤ c.bottom ∧ 0 ≤ c.top ∧ 0 ≤ c.height
  lift : head.kind = .linearExtrude → ∀ height, head.liftHeight = .ok height → 0 ≤ height

variable [Exact R]

namespace Space.Box

variable {box : Box R}

theorem ordered_around_axis {r low high : R} (hr : 0 ≤ r) (h : low ≤ high) :
    Ordered ⟨⟨-r, -r, low⟩, ⟨r, r, high⟩⟩ :=
  ⟨neg_le_self hr, neg_le_self hr, h⟩

theorem Ordered.outlined (h : box.Ordered) (amount : R) : (box.outlined amount).Ordered := by
  unfold Box.outlined
  dsimp only
  split
  · rename_i hamount
    rw [Exact.atMost_iff] at hamount
    have hgrow : ∀ low high a : R, low ≤ high → 0 ≤ a → low + -a ≤ high + a :=
      fun low high a hle ha => add_le_add hle (neg_le_self ha)
    exact ⟨hgrow _ _ _ h.x hamount, hgrow _ _ _ h.y hamount, hgrow _ _ _ h.z le_rfl⟩
  · -- Both corners end at the center or before it.
    have hcenter : ∀ low high center : R,
        Coordinate.least low center ≤ Coordinate.greatest high center := by
      intro low high center
      rw [Exact.least_eq, Exact.greatest_eq]
      exact (min_le_right low center).trans (le_max_right high center)
    exact ⟨hcenter _ _ _, hcenter _ _ _, hcenter _ _ _⟩

end Space.Box

namespace Extent

theorem ordered_around (extents : List (Extent R)) (h : ∀ extent ∈ extents, extent.box.Ordered) :
    (around extents).box.Ordered := by
  cases extents with
  | nil => exact Box.ordered_zero
  | cons first rest =>
    have hfold : ∀ (boxes : List (Box R)) (b : Box R), b.Ordered →
        (boxes.foldl Box.union b).Ordered := by
      intro boxes
      induction boxes with
      | nil => exact fun b h => h
      | cons other boxes ih => exact fun b h => ih _ (h.union other)
    exact hfold _ _ (h first List.mem_cons_self)

theorem ordered_inner (extents : List (Extent R)) (h : ∀ extent ∈ extents, extent.box.Ordered) :
    (inner extents).box.Ordered := by
  unfold inner
  split
  · exact h _ List.mem_cons_self
  · exact ordered_around _ h

end Extent

namespace Head

variable {head : Head R} {extent profile : Extent R}

theorem ordered_cubeExtent (hhead : head.HasDimensions) (hkind : head.kind = .cube)
    (h : head.cubeExtent = .ok extent) : extent.box.Ordered := by
  obtain ⟨size, hsize, hbox⟩ := cubeExtent_ok h
  obtain ⟨hx, hy, hz⟩ := hhead.cube hkind size hsize
  have hcube : Box.Ordered ⟨0, size⟩ := ⟨hx, hy, hz⟩
  rcases hbox with hbox | ⟨offset, hbox⟩
  · exact hbox ▸ hcube
  · exact hbox ▸ hcube.shift offset

theorem ordered_cylinderExtent (hhead : head.HasDimensions) (hkind : head.kind = .cylinder)
    (h : head.cylinderExtent = .ok extent) : extent.box.Ordered := by
  obtain ⟨c, hc, box, rfl, hbox⟩ := cylinderExtent_ok h
  obtain ⟨hbottom, -, hheight⟩ := hhead.cylinder hkind c hc
  have hradius : 0 ≤ c.greaterRadius := by
    rw [Cylinder.greaterRadius, Exact.greatest_eq]
    exact le_max_of_le_left hbottom
  have hcylinder := Box.ordered_around_axis hradius hheight
  rcases hbox with hbox | ⟨offset, hbox⟩
  · exact hbox ▸ hcylinder
  · exact hbox ▸ hcylinder.shift offset

theorem ordered_movedExtent (head : Head R) (hprofile : profile.box.Ordered) :
    (head.movedExtent profile).box.Ordered := by
  unfold movedExtent
  split
  · exact Box.ordered_transform _ _
  · exact hprofile

theorem ordered_liftedExtent (hhead : head.HasDimensions) (hkind : head.kind = .linearExtrude)
    (hprofile : profile.box.Ordered) (h : head.liftedExtent profile = .ok extent) :
    extent.box.Ordered := by
  obtain ⟨height, hheight, whole, scale, ground, rfl, hbox⟩ := liftedExtent_ok h
  have hwhole : (profile.box.withTop scale).Ordered := hprofile.union _
  rw [hbox]
  exact ⟨hwhole.x, hwhole.y, le_add_of_nonneg_right (hhead.lift hkind height hheight)⟩

theorem ordered_sweptExtent (hprofile : profile.box.Ordered) :
    (sweptExtent profile).box.Ordered := by
  refine Box.ordered_around_axis ?_ hprofile.y
  rw [Exact.greatest_eq, Exact.magnitude_eq]
  exact le_max_of_le_left (abs_nonneg _)

theorem ordered_outlinedExtent (hprofile : profile.box.Ordered)
    (h : head.outlinedExtent profile = .ok extent) : extent.box.Ordered := by
  obtain ⟨amount, hbox⟩ := outlinedExtent_ok h
  exact hbox ▸ hprofile.outlined amount

omit [BEq R] [Coordinate R] [Exact R] in
theorem ordered_shadowExtent (hprofile : profile.box.Ordered) :
    (shadowExtent profile).box.Ordered :=
  ⟨hprofile.x, hprofile.y, le_rfl⟩

theorem ordered_extentOf (hhead : head.HasDimensions) {extents : List (Extent R)}
    (hextents : ∀ extent ∈ extents, extent.box.Ordered) (h : head.extentOf extents = .ok extent) :
    extent.box.Ordered := by
  have hprofile := Extent.ordered_inner extents hextents
  unfold extentOf at h
  dsimp only at h
  split at h
  case h_5 hkind => exact ordered_liftedExtent hhead hkind hprofile h
  case h_6 =>
    cases h
    exact ordered_sweptExtent hprofile
  case h_7 => exact ordered_outlinedExtent hprofile h
  case h_8 =>
    cases h
    exact ordered_shadowExtent hprofile
  case h_9 =>
    cases h
    exact Extent.ordered_around extents hextents
  all_goals
    cases h
    exact ordered_movedExtent head hprofile

end Head

/-- Where the coordinates are exact, no part has an inverted box: if no cube, cylinder or lifted
profile in it has a negative dimension, its lower corner is at most its upper corner on every
axis. -/
theorem Part.ordered_extent (part : Part R)
    (hdimensions : ∀ inner, Within inner part → inner.head.HasDimensions) {extent : Extent R}
    (h : part.extent = .ok extent) : extent.box.Ordered := by
  induction part using Part.induction generalizing extent with
  | step part ih =>
    have hhead := hdimensions part .self
    rcases extent_ok h with ⟨hkind, h⟩ | ⟨hkind, h⟩ | ⟨extents, hinner, h⟩
    · exact Head.ordered_cubeExtent hhead hkind h
    · exact Head.ordered_cylinderExtent hhead hkind h
    · refine Head.ordered_extentOf hhead (fun below hbelow => ?_) h
      obtain ⟨inner, hmem, hextent⟩ := Fault.exists_of_mem_collect hinner below hbelow
      exact ih inner hmem (fun other hother => hdimensions other (hother.trans (.of_mem hmem)))
        hextent

/-! ## A flared block -/

namespace Part

def brick : Part ℚ := ⟨0, .ofKind .cube [.vector ⟨2, 4, 6⟩] ∅ .plain, []⟩

def turnedBrick : Part ℚ := ⟨1, .ofKind .rotate [.vector ⟨0, 0, 90⟩] ∅ .motion, [brick]⟩

/-- A profile with a top that is scaled to the other side of the axis. -/
def flared : Part ℚ :=
  ⟨2, .ofKind .linearExtrude [] (.ofList [("height", .int 5), ("scale", .int (-2))]) .plain,
    [turnedBrick]⟩

def shrunk : Part ℚ := ⟨3, .ofKind .offset [] (.ofList [("delta", .int (-10))]) .plain, [flared]⟩

/-- It shrinks to its center in the plane, and not to an inverted box. -/
theorem ordered_shrunk :
    (∀ inner, Within inner shrunk → inner.head.HasDimensions) ∧
      ∃ extent, shrunk.extent = .ok extent ∧ extent.box = ⟨⟨2, -1, 0⟩, ⟨2, -1, 5⟩⟩ ∧
        extent.box.Ordered := by
  have hbrick : brick.head.HasDimensions := by
    refine ⟨fun _ size hsize => ?_, nofun, nofun⟩
    have hread : brick.head.cubeSize = .ok ⟨2, 4, 6⟩ := rfl
    obtain rfl := Except.ok.inj (hread.symm.trans hsize)
    decide
  have hflared : flared.head.HasDimensions := by
    refine ⟨nofun, nofun, fun _ height hheight => ?_⟩
    have hread : flared.head.liftHeight = .ok 5 := rfl
    obtain rfl := Except.ok.inj (hread.symm.trans hheight)
    decide
  have hdimensions : ∀ inner, Within inner shrunk → inner.head.HasDimensions := by
    refine forall_within_iff.mpr ⟨⟨nofun, nofun, nofun⟩, List.forall_mem_singleton.mpr ?_⟩
    refine forall_within_iff.mpr ⟨hflared, List.forall_mem_singleton.mpr ?_⟩
    refine forall_within_iff.mpr ⟨⟨nofun, nofun, nofun⟩, List.forall_mem_singleton.mpr ?_⟩
    exact forall_within_iff.mpr ⟨hbrick, List.forall_mem_nil _⟩
  have hbox : shrunk.extent.map Extent.box = .ok ⟨⟨2, -1, 0⟩, ⟨2, -1, 5⟩⟩ := by decide +kernel
  cases hextent : shrunk.extent with
  | error fault =>
    rw [hextent] at hbox
    cases hbox
  | ok extent =>
    rw [hextent] at hbox
    exact ⟨hdimensions, extent, rfl, Except.ok.inj hbox, ordered_extent shrunk hdimensions hextent⟩

end Part

end SolidScript
