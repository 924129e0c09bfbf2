import SolidScript.Proofs.Extent.Ordered
import SolidScript.Proofs.Space.Bounds

/-!
# Centroids in boxes

Over exact coordinates a part of known dimensions has its centroid in its box, and so has what is
made of a profile that has: all but an outline that is moved inwards. Its box shrinks towards the
center while its centroid stays where it is, so the box has to spare the centroid
(`Part.SparesCentroid`).

The centroid is the center of the box from the primitives on, and motions, groups and changes of
dimension keep it there. Only a lift with a scaled top widens the box to one side.
-/

namespace SolidScript

open Space SolidScript.Part

variable {R : Type} [Field R] [Coordinate R]

/-! ## Centered extents -/

namespace Extent

def IsCentered (extent : Extent R) : Prop := extent.centroid = extent.box.center

theorem isCentered_around (extents : List (Extent R)) : (around extents).IsCentered := by
  cases extents <;> rfl

/-- What an operation acts on is a single extent or a group. -/
theorem inner_induction {motive : Extent R → Prop} {extents : List (Extent R)}
    (h : ∀ extent ∈ extents, motive extent) (haround : motive (around extents)) :
    motive (inner extents) := by
  unfold inner
  split
  · exact h _ List.mem_cons_self
  · exact haround

end Extent

namespace Head

variable {head : Head R} {extent : Extent R}

theorem isCentered_cubeExtent (h : head.cubeExtent = .ok extent) : extent.IsCentered := by
  rw [cubeExtent_eq] at h
  obtain ⟨size, -, rfl⟩ := Fault.exists_of_map h
  rfl

theorem isCentered_cylinderExtent (h : head.cylinderExtent = .ok extent) : extent.IsCentered := by
  unfold cylinderExtent at h
  obtain ⟨c, -, h⟩ := Fault.exists_of_bind h
  cases h
  rfl

theorem isCentered_sweptExtent (profile : Extent R) : (sweptExtent profile).IsCentered := rfl

/-- A lifted profile with a scaled top. -/
def IsFlared (head : Head R) : Prop :=
  head.kind = .linearExtrude ∧ ((head.named.get? "scale").bind Value.vector?).isSome

theorem isAffine_of_matrix? [BEq R] {kind : Kind} {v : Vec3 R} {m : Homogeneous R}
    (h : kind.matrix? v = some m) : m.IsAffine := by
  unfold Kind.matrix? at h
  split at h <;> cases h <;> rfl

end Head

/-! ## Boxes that shrink -/

variable [LinearOrder R] [BEq R]

/-- A box that shrinks by an amount on either side of an axis, but to its center at most, still
holds the coordinate of a point. -/
structure Space.Box.Spares (box : Box R) (amount : R) (point : Vec3 R) : Prop where
  x : point.x = box.center.x ∨ box.min.x + amount ≤ point.x ∧ point.x ≤ box.max.x - amount
  y : point.y = box.center.y ∨ box.min.y + amount ≤ point.y ∧ point.y ≤ box.max.y - amount

/-- An outline that is moved inwards spares the centroid of its profile. -/
def Part.SparesCentroid (part : Part R) : Prop :=
  part.head.kind = .offset → ∀ extents, Fault.collect (part.parts.map Part.extent) = .ok extents →
    ∀ amount, part.head.outlineAmount = .ok amount → amount < 0 →
      (Extent.inner extents).box.Spares (-amount) (Extent.inner extents).centroid

variable [Exact R]

namespace Space.Box

variable {box : Box R} {point : Vec3 R} {amount : R}

theorem mem_shrunk_iff {low high center c : R} (hcenter : center = (low + high) / (1 + 1)) :
    (low + -amount) ⊓ center ≤ c ∧ c ≤ (high + amount) ⊔ center ↔
      c = center ∨ low + -amount ≤ c ∧ c ≤ high - -amount := by
  rw [one_add_one_eq_two] at hcenter
  rcases le_total (low + -amount) center with h | h
  · rw [inf_eq_left.mpr h, sup_eq_left.mpr (by linarith), sub_neg_eq_add]
    refine ⟨.inr, ?_⟩
    rintro (rfl | hc)
    · exact ⟨h, by linarith⟩
    · exact hc
  · -- The sides have met, and only the center is left.
    rw [inf_eq_right.mpr h, sup_eq_right.mpr (by linarith)]
    refine ⟨fun hc => .inl (le_antisymm hc.2 hc.1), ?_⟩
    rintro (rfl | hc)
    · exact ⟨le_rfl, le_rfl⟩
    · exact ⟨by linarith, by linarith⟩

theorem center_shrunk {low high center : R} (hcenter : center = (low + high) / (1 + 1)) :
    ((low + -amount) ⊓ center + (high + amount) ⊔ center) / (1 + 1) = center := by
  rw [one_add_one_eq_two] at hcenter ⊢
  rcases le_total (low + -amount) center with h | h
  · rw [inf_eq_left.mpr h, sup_eq_left.mpr (by linarith)]
    linarith
  · rw [inf_eq_right.mpr h, sup_eq_right.mpr (by linarith)]
    linarith

theorem outlined_of_nonneg (box : Box R) (hamount : 0 ≤ amount) :
    box.outlined amount = ⟨⟨box.min.x + -amount, box.min.y + -amount, box.min.z + -0⟩,
      ⟨box.max.x + amount, box.max.y + amount, box.max.z + 0⟩⟩ :=
  if_pos ((Exact.atMost_iff 0 amount).mpr hamount)

theorem Ordered.outlined_of_neg (h : box.Ordered) (hamount : amount < 0) :
    box.outlined amount =
      ⟨⟨(box.min.x + -amount) ⊓ box.center.x, (box.min.y + -amount) ⊓ box.center.y, box.min.z⟩,
        ⟨(box.max.x + amount) ⊔ box.center.x, (box.max.y + amount) ⊔ box.center.y, box.max.z⟩⟩ := by
  have hnot : ¬Coordinate.atMost 0 amount := by
    rw [Exact.atMost_iff]
    exact not_le.mpr hamount
  have hmiddle := h.holds_center
  have hlow : Coordinate.least (box.min.z + -0) box.center.z = box.min.z := by
    rw [Exact.least_eq, neg_zero, add_zero]
    exact inf_eq_left.mpr hmiddle.1.2.2
  have hhigh : Coordinate.greatest (box.max.z + 0) box.center.z = box.max.z := by
    rw [Exact.greatest_eq, add_zero]
    exact sup_eq_left.mpr hmiddle.2.2.2
  have houtlined : box.outlined amount =
      ⟨⟨Coordinate.least (box.min.x + -amount) box.center.x,
          Coordinate.least (box.min.y + -amount) box.center.y,
          Coordinate.least (box.min.z + -0) box.center.z⟩,
        ⟨Coordinate.greatest (box.max.x + amount) box.center.x,
          Coordinate.greatest (box.max.y + amount) box.center.y,
          Coordinate.greatest (box.max.z + 0) box.center.z⟩⟩ := if_neg hnot
  rw [houtlined, hlow, hhigh, Exact.least_eq, Exact.least_eq, Exact.greatest_eq, Exact.greatest_eq]

theorem Holds.outlined (h : box.Holds point) (hamount : 0 ≤ amount) :
    (box.outlined amount).Holds point := by
  obtain ⟨⟨hx, hy, hz⟩, hx', hy', hz'⟩ := h
  rw [outlined_of_nonneg box hamount]
  refine ⟨⟨?_, ?_, ?_⟩, ?_, ?_, ?_⟩ <;> dsimp only <;> linarith

theorem Holds.outlined_iff (h : box.Holds point) (hamount : amount < 0) :
    (box.outlined amount).Holds point ↔ box.Spares (-amount) point := by
  have hx : box.center.x = (box.min.x + box.max.x) / (1 + 1) := rfl
  have hy : box.center.y = (box.min.y + box.max.y) / (1 + 1) := rfl
  rw [h.ordered.outlined_of_neg hamount]
  constructor
  · rintro ⟨hlow, hhigh⟩
    exact ⟨(mem_shrunk_iff hx).mp ⟨hlow.1, hhigh.1⟩, (mem_shrunk_iff hy).mp ⟨hlow.2.1, hhigh.2.1⟩⟩
  · intro hspares
    obtain ⟨hlowx, hhighx⟩ := (mem_shrunk_iff hx).mpr hspares.x
    obtain ⟨hlowy, hhighy⟩ := (mem_shrunk_iff hy).mpr hspares.y
    exact ⟨⟨hlowx, hlowy, h.1.2.2⟩, hhighx, hhighy, h.2.2.2⟩

theorem Ordered.center_outlined (h : box.Ordered) (amount : R) :
    (box.outlined amount).center = box.center := by
  have hx : box.center.x = (box.min.x + box.max.x) / (1 + 1) := rfl
  have hy : box.center.y = (box.min.y + box.max.y) / (1 + 1) := rfl
  rw [center_eq]
  rcases le_or_gt 0 amount with hamount | hamount
  · rw [outlined_of_nonneg box hamount, center_eq]
    dsimp only
    ring_nf
  · rw [h.outlined_of_neg hamount]
    dsimp only
    rw [center_shrunk hx, center_shrunk hy]
    rfl

end Space.Box

/-! ## Rules -/

namespace Space.Box

theorem withTop_min_le (box : Box R) (scale : Option (Vec3 R)) :
    (box.withTop scale).min ≤ box.min :=
  (Vec3.le_least_iff.mp (le_refl (box.withTop scale).min)).1

theorem le_withTop_max (box : Box R) (scale : Option (Vec3 R)) :
    box.max ≤ (box.withTop scale).max :=
  (Vec3.greatest_le_iff.mp (le_refl (box.withTop scale).max)).1

theorem withTop_none (box : Box R) : box.withTop none = box := by
  show Box.mk (Vec3.mk _ _ _) (Vec3.mk _ _ _) = box
  simp only [Exact.least_eq, Exact.greatest_eq, min_self, max_self]

end Space.Box

namespace Extent

def HoldsCentroid (extent : Extent R) : Prop := extent.box.Holds extent.centroid

variable {extent : Extent R} {extents : List (Extent R)}

theorem IsCentered.holdsCentroid (h : extent.IsCentered) (hbox : extent.box.Ordered) :
    extent.HoldsCentroid := by
  rw [HoldsCentroid, h]
  exact hbox.holds_center

theorem holdsCentroid_around (h : ∀ extent ∈ extents, extent.HoldsCentroid) :
    (around extents).HoldsCentroid :=
  (isCentered_around extents).holdsCentroid <|
    ordered_around extents fun extent hmem => (h extent hmem).ordered

end Extent

namespace Head

variable {head : Head R} {extent profile : Extent R}

theorem holdsCentroid_movedExtent (head : Head R) (h : profile.HoldsCentroid) :
    (head.movedExtent profile).HoldsCentroid := by
  unfold movedExtent
  split
  · rename_i m hm
    obtain ⟨v, -, hmatrix⟩ := Option.bind_eq_some_iff.mp hm
    exact Box.Holds.transform h (isAffine_of_matrix? hmatrix)
  · exact h

theorem isCentered_movedExtent (head : Head R) (hprofile : profile.box.Ordered)
    (h : profile.IsCentered) : (head.movedExtent profile).IsCentered := by
  unfold movedExtent
  split
  · rename_i m hm
    obtain ⟨v, -, hmatrix⟩ := Option.bind_eq_some_iff.mp hm
    show m.onPoint profile.centroid = (profile.box.transform m).center
    rw [hprofile.center_transform (isAffine_of_matrix? hmatrix), h]
  · exact h

theorem holdsCentroid_liftedExtent (hhead : head.HasDimensions)
    (hkind : head.kind = .linearExtrude) (hprofile : profile.HoldsCentroid)
    (h : head.liftedExtent profile = .ok extent) : extent.HoldsCentroid := by
  rw [liftedExtent_eq] at h
  obtain ⟨height, hheight, rfl⟩ := Fault.exists_of_map h
  have hpos : 0 ≤ height := hhead.lift hkind height hheight
  have hhalf : 0 ≤ height / (1 + 1) ∧ height / (1 + 1) ≤ height := by
    rw [one_add_one_eq_two]
    exact ⟨by linarith, by linarith⟩
  have hlow (scale) := (profile.box.withTop_min_le scale).trans hprofile.1
  have hhigh (scale) := hprofile.2.trans (profile.box.le_withTop_max scale)
  refine ⟨⟨(hlow _).1, (hlow _).2.1, ?_⟩, (hhigh _).1, (hhigh _).2.1, ?_⟩
  · exact le_add_of_nonneg_right hhalf.1
  · exact add_le_add_right hhalf.2 _

theorem isCentered_liftedExtent (hkind : head.kind = .linearExtrude) (hflat : ¬head.IsFlared)
    (hprofile : profile.IsCentered) (h : head.liftedExtent profile = .ok extent) :
    extent.IsCentered := by
  rw [liftedExtent_eq] at h
  obtain ⟨height, hheight, rfl⟩ := Fault.exists_of_map h
  have hscale : (head.named.get? "scale").bind Value.vector? = none := by
    rw [← Option.not_isSome_iff_eq_none]
    exact fun hsome => hflat ⟨hkind, hsome⟩
  have hmiddle (ground : R) :
      ground + height / (1 + 1) = (ground + (ground + height)) / (1 + 1) := by
    rw [one_add_one_eq_two]
    ring
  rw [Extent.IsCentered, Box.center_eq]
  dsimp only
  rw [hscale, Box.withTop_none, hmiddle, hprofile, Box.center_eq]

omit [Coordinate R] [BEq R] [Exact R] in
theorem holdsCentroid_shadowExtent (h : profile.HoldsCentroid) :
    (shadowExtent profile).HoldsCentroid :=
  ⟨⟨h.1.1, h.1.2.1, le_rfl⟩, h.2.1, h.2.2.1, le_rfl⟩

omit [Coordinate R] [LinearOrder R] [BEq R] [Exact R] in
theorem isCentered_shadowExtent (h : profile.IsCentered) : (shadowExtent profile).IsCentered := by
  rw [Extent.IsCentered, Box.center_eq]
  dsimp only [shadowExtent]
  rw [h, Box.center_eq, add_zero, zero_div]

/-- Whatever the kind of a part, the centroids of its parts in their boxes give it one in its box,
if it is no outline or its outline spares the centroid. -/
theorem holdsCentroid_extentOf (hhead : head.HasDimensions) {extents : List (Extent R)}
    (hspares : head.kind = .offset → ∀ amount, head.outlineAmount = .ok amount → amount < 0 →
      (Extent.inner extents).box.Spares (-amount) (Extent.inner extents).centroid)
    (hextents : ∀ extent ∈ extents, extent.HoldsCentroid) (h : head.extentOf extents = .ok extent) :
    extent.HoldsCentroid := by
  have hprofile := Extent.inner_induction hextents (Extent.holdsCentroid_around hextents)
  unfold extentOf at h
  dsimp only at h
  split at h
  case h_5 hkind => exact holdsCentroid_liftedExtent hhead hkind hprofile h
  case h_6 =>
    cases h
    exact (isCentered_sweptExtent _).holdsCentroid (ordered_sweptExtent hprofile.ordered)
  case h_7 hkind =>
    rw [outlinedExtent_eq] at h
    obtain ⟨amount, hread, rfl⟩ := Fault.exists_of_map h
    rcases le_or_gt 0 amount with hamount | hamount
    · exact Box.Holds.outlined hprofile hamount
    · exact (Box.Holds.outlined_iff hprofile hamount).mpr (hspares hkind amount hread hamount)
  case h_8 =>
    cases h
    exact holdsCentroid_shadowExtent hprofile
  case h_9 =>
    cases h
    exact Extent.holdsCentroid_around hextents
  all_goals
    cases h
    exact holdsCentroid_movedExtent head hprofile

/-- Whatever the kind of a part, centered parts give it a centered extent, if it is no lift with a
scaled top. -/
theorem isCentered_extentOf (hflat : ¬head.IsFlared) {extents : List (Extent R)}
    (hordered : ∀ extent ∈ extents, extent.box.Ordered)
    (hextents : ∀ extent ∈ extents, extent.IsCentered) (h : head.extentOf extents = .ok extent) :
    extent.IsCentered := by
  have hprofile := Extent.inner_induction hextents (Extent.isCentered_around extents)
  have hbox := Extent.ordered_inner extents hordered
  unfold extentOf at h
  dsimp only at h
  split at h
  case h_5 hkind => exact isCentered_liftedExtent hkind hflat hprofile h
  case h_6 =>
    cases h
    exact isCentered_sweptExtent _
  case h_7 hkind =>
    rw [outlinedExtent_eq] at h
    obtain ⟨amount, hread, rfl⟩ := Fault.exists_of_map h
    exact hprofile.trans (hbox.center_outlined amount).symm
  case h_8 =>
    cases h
    exact isCentered_shadowExtent hprofile
  case h_9 =>
    cases h
    exact Extent.isCentered_around extents
  all_goals
    cases h
    exact isCentered_movedExtent head hbox hprofile

end Head

/-! ## Whole parts -/

namespace Part

variable {part : Part R} {extent : Extent R}

/-- The centroid of a part lies in its box, if every outline in it that is moved inwards spares the
centroid of its profile. -/
theorem holdsCentroid (part : Part R)
    (hdimensions : ∀ inner, Within inner part → inner.head.HasDimensions)
    (hspares : ∀ inner, Within inner part → inner.SparesCentroid)
    (h : part.extent = .ok extent) : extent.HoldsCentroid := by
  induction part using Part.induction generalizing extent with
  | step part ih =>
    have hhead := hdimensions part .self
    rcases extent_ok h with ⟨hkind, h⟩ | ⟨hkind, h⟩ | ⟨extents, hinner, h⟩
    · exact (Head.isCentered_cubeExtent h).holdsCentroid (Head.ordered_cubeExtent hhead hkind h)
    · exact (Head.isCentered_cylinderExtent h).holdsCentroid
        (Head.ordered_cylinderExtent hhead hkind h)
    · refine Head.holdsCentroid_extentOf hhead
        (fun hkind => hspares part .self hkind extents hinner) (fun below hbelow => ?_) h
      obtain ⟨inner, hmem, hextent⟩ := Fault.exists_of_mem_collect hinner below hbelow
      exact ih inner hmem (fun other hother => hdimensions other (hother.trans (.of_mem hmem)))
        (fun other hother => hspares other (hother.trans (.of_mem hmem))) hextent

/-- If no lift in a part has a scaled top, then its centroid is the center of its box. -/
theorem isCentered (part : Part R)
    (hdimensions : ∀ inner, Within inner part → inner.head.HasDimensions)
    (hflat : ∀ inner, Within inner part → ¬inner.head.IsFlared)
    (h : part.extent = .ok extent) : extent.box.Ordered ∧ extent.IsCentered := by
  induction part using Part.induction generalizing extent with
  | step part ih =>
    have hhead := hdimensions part .self
    rcases extent_ok h with ⟨hkind, h⟩ | ⟨hkind, h⟩ | ⟨extents, hinner, h⟩
    · exact ⟨Head.ordered_cubeExtent hhead hkind h, Head.isCentered_cubeExtent h⟩
    · exact ⟨Head.ordered_cylinderExtent hhead hkind h, Head.isCentered_cylinderExtent h⟩
    · have hbelow (below) (hmem : below ∈ extents) : below.box.Ordered ∧ below.IsCentered := by
        obtain ⟨inner, hmem, hextent⟩ := Fault.exists_of_mem_collect hinner below hmem
        exact ih inner hmem (fun other hother => hdimensions other (hother.trans (.of_mem hmem)))
          (fun other hother => hflat other (hother.trans (.of_mem hmem))) hextent
      have hordered := fun below hmem => (hbelow below hmem).1
      have hcentered := fun below hmem => (hbelow below hmem).2
      exact ⟨Head.ordered_extentOf hhead hordered h,
        Head.isCentered_extentOf (hflat part .self) hordered hcentered h⟩

/-- An outline whose profile has its centroid in its box spares the centroid if its own box holds
it. -/
theorem sparesCentroid_of_holdsCentroid
    (hbelow : ∀ inner ∈ part.parts, ∀ extent, inner.extent = .ok extent → extent.HoldsCentroid)
    (hholds : ∀ extent, part.extent = .ok extent → extent.HoldsCentroid) :
    part.SparesCentroid := by
  intro hkind extents hcollect amount hread hamount
  have hextents : ∀ extent ∈ extents, extent.HoldsCentroid := fun extent hmem => by
    obtain ⟨inner, hinner, hextent⟩ := Fault.exists_of_mem_collect hcollect extent hmem
    exact hbelow inner hinner extent hextent
  have hprofile := Extent.inner_induction hextents (Extent.holdsCentroid_around hextents)
  have hinner : part.profile = .ok (Extent.inner extents) := by
    rw [profile, hcollect]
    rfl
  exact (Box.Holds.outlined_iff hprofile hamount).mp <|
    hholds _ (extent_of_outline hkind hread hinner)

theorem sparesCentroid_of_flat
    (hdimensions : ∀ inner, Within inner part → inner.head.HasDimensions)
    (hflat : ∀ inner, Within inner part → ¬inner.head.IsFlared) : part.SparesCentroid := by
  intro hkind extents hcollect amount hread hamount
  have hextents : ∀ extent ∈ extents, extent.IsCentered := fun extent hmem => by
    obtain ⟨inner, hinner, hextent⟩ := Fault.exists_of_mem_collect hcollect extent hmem
    exact (isCentered inner (fun other hother => hdimensions other (hother.trans (.of_mem hinner)))
      (fun other hother => hflat other (hother.trans (.of_mem hinner))) hextent).2
  have hprofile : (Extent.inner extents).IsCentered :=
    Extent.inner_induction hextents (Extent.isCentered_around extents)
  exact ⟨.inl (congrArg Vec3.x hprofile), .inl (congrArg Vec3.y hprofile)⟩

/-- A part and all parts in it have their centroids in their boxes exactly if every outline among
them that is moved inwards spares the centroid of its profile. An outline does if no lift below it
has a scaled top. -/
theorem contains_centroid_iff (part : Part R)
    (hdimensions : ∀ inner, Within inner part → inner.head.HasDimensions) :
    ((∀ inner, Within inner part → ∀ extent, inner.extent = .ok extent →
          extent.box.contains extent.centroid) ↔
        ∀ inner, Within inner part → inner.SparesCentroid) ∧
      ∀ inner, Within inner part → (∀ below, Within below inner → ¬below.head.IsFlared) →
        inner.SparesCentroid := by
  have hbelow {inner : Part R} (hinner : Within inner part) :
      ∀ other, Within other inner → other.head.HasDimensions :=
    fun other hother => hdimensions other (hother.trans hinner)
  refine ⟨⟨fun h inner hinner => ?_, fun h inner hinner extent hextent => ?_⟩,
    fun inner hinner hflat => sparesCentroid_of_flat (hbelow hinner) hflat⟩
  · refine sparesCentroid_of_holdsCentroid (fun child hchild extent hextent => ?_)
      fun extent hextent => Box.contains_iff.mp (h inner hinner extent hextent)
    exact Box.contains_iff.mp (h child (.trans (.of_mem hchild) hinner) extent hextent)
  · exact Box.contains_iff.mpr <| holdsCentroid inner (hbelow hinner)
      (fun other hother => h other (hother.trans hinner)) hextent

end Part

/-! ## A hopper -/

namespace Part

def slab : Part ℚ := ⟨0, .ofKind .cube [.vector ⟨10, 10, 1⟩] ∅ .plain, []⟩

/-- A block with a top that is three times as wide, to one side. -/
def hopper : Part ℚ :=
  ⟨1, .ofKind .linearExtrude [] (.ofList [("height", .int 1), ("scale", .int 3)]) .plain, [slab]⟩

def trimmed : Part ℚ := ⟨2, .ofKind .offset [] (.ofList [("delta", .int (-2))]) .plain, [hopper]⟩

def pared : Part ℚ := ⟨3, .ofKind .offset [] (.ofList [("r", .int (-10))]) .plain, [hopper]⟩

theorem slab_hasDimensions : slab.head.HasDimensions := by
  refine ⟨fun _ size hsize => ?_, nofun, nofun⟩
  have hread : slab.head.cubeSize = .ok ⟨10, 10, 1⟩ := rfl
  obtain rfl := Except.ok.inj (hread.symm.trans hsize)
  decide

theorem hopper_hasDimensions : hopper.head.HasDimensions := by
  refine ⟨nofun, nofun, fun _ height hheight => ?_⟩
  have hread : hopper.head.liftHeight = .ok 1 := rfl
  obtain rfl := Except.ok.inj (hread.symm.trans hheight)
  decide

theorem hopper_extent : hopper.extent = .ok ⟨⟨⟨0, 0, 0⟩, ⟨30, 30, 1⟩⟩, ⟨5, 5, 1 / 2⟩⟩ := by
  have h : hopper.extent.map (fun extent => (extent.box, extent.centroid)) =
      .ok (⟨⟨0, 0, 0⟩, ⟨30, 30, 1⟩⟩, ⟨5, 5, 1 / 2⟩) := by decide +kernel
  obtain ⟨⟨box, centroid⟩, hextent, hpair⟩ := Fault.exists_of_map h
  cases hpair
  exact hextent

/-- The trimmed hopper spares its centroid, so its box holds it. -/
theorem trimmed_contains_centroid :
    (∀ inner, Within inner trimmed → inner.head.HasDimensions) ∧
      (∀ inner, Within inner trimmed → inner.SparesCentroid) ∧
      ∀ extent, trimmed.extent = .ok extent → extent.box.contains extent.centroid := by
  have hdimensions : ∀ inner, Within inner trimmed → inner.head.HasDimensions := by
    refine forall_within_iff.mpr ⟨⟨nofun, nofun, nofun⟩, List.forall_mem_singleton.mpr ?_⟩
    refine forall_within_iff.mpr ⟨hopper_hasDimensions, List.forall_mem_singleton.mpr ?_⟩
    exact forall_within_iff.mpr ⟨slab_hasDimensions, List.forall_mem_nil _⟩
  have hspares : ∀ inner, Within inner trimmed → inner.SparesCentroid := by
    refine forall_within_iff.mpr ⟨?_, List.forall_mem_singleton.mpr ?_⟩
    · intro _ extents hcollect amount hread _
      have hprofile : Fault.collect (trimmed.parts.map extent) = _ :=
        congrArg (fun extent => Fault.collect [extent]) hopper_extent
      have hamount : trimmed.head.outlineAmount = .ok (-2) := rfl
      obtain rfl := Except.ok.inj (hprofile.symm.trans hcollect)
      obtain rfl := Except.ok.inj (hamount.symm.trans hread)
      exact ⟨.inr (by decide +kernel), .inr (by decide +kernel)⟩
    · refine forall_within_iff.mpr ⟨nofun, List.forall_mem_singleton.mpr ?_⟩
      exact forall_within_iff.mpr ⟨nofun, List.forall_mem_nil _⟩
  exact ⟨hdimensions, hspares,
    (contains_centroid_iff trimmed hdimensions).1.mpr hspares trimmed .self⟩

/-- The pared hopper has its centroid outside of its box. -/
theorem pared_not_contains_centroid :
    (∀ inner, Within inner pared → inner.head.HasDimensions) ∧
      ∃ extent, pared.extent = .ok extent ∧ ¬extent.box.contains extent.centroid := by
  have hdimensions : ∀ inner, Within inner pared → inner.head.HasDimensions := by
    refine forall_within_iff.mpr ⟨⟨nofun, nofun, nofun⟩, List.forall_mem_singleton.mpr ?_⟩
    refine forall_within_iff.mpr ⟨hopper_hasDimensions, List.forall_mem_singleton.mpr ?_⟩
    exact forall_within_iff.mpr ⟨slab_hasDimensions, List.forall_mem_nil _⟩
  have hcontains : pared.extent.map (fun extent => extent.box.contains extent.centroid) =
      .ok false := by decide +kernel
  obtain ⟨extent, hextent, hfalse⟩ := Fault.exists_of_map hcontains
  exact ⟨hdimensions, extent, hextent, by rw [← hfalse]; exact Bool.false_ne_true⟩

end Part

end SolidScript
