import SolidScript.Proofs.Extent.Centroid

/-!
# Boxes that are reshaped

Over exact coordinates the box of an extrusion, a projection or an outline holds what it makes of
every point that the box of its profile holds (`Part.contains_reshaped`): all slices between the
bottom and a top of any scale, the whole circle around the axis, the shadow, and the square around
the point by which an outline is moved outwards. An outline that is moved inwards stays inside the
box of its profile and keeps the points that are far enough from its sides.
-/

namespace SolidScript

open Space

variable {R : Type} [Field R] [LinearOrder R] [BEq R] [Coordinate R]

namespace Head

/-- The factors by which a lift scales its top: one unless a scale is given. -/
def topScale (head : Head R) : Vec3 R :=
  ((head.named.get? "scale").bind Value.vector?).getD ⟨1, 1, 1⟩

/-- Where a lift of some height starts: half of it below the plane if centered. -/
def ground (head : Head R) (height : R) : R := if head.isSet "center" then -height / 2 else 0

/-- Where a point of the profile is in the slice of a lift at a part `t` of its height. -/
def slice (head : Head R) (height t : R) (p : Vec3 R) : Vec3 R :=
  ⟨p.x * (1 + t * (head.topScale.x - 1)), p.y * (1 + t * (head.topScale.y - 1)),
    head.ground height + t * height⟩

end Head

variable [Exact R]

/-! ## Single axes -/

theorem mul_mem_of_ends {low high c factor bottom top : R} (hc : low ≤ c ∧ c ≤ high)
    (hlow : bottom ≤ low * factor ∧ low * factor ≤ top)
    (hhigh : bottom ≤ high * factor ∧ high * factor ≤ top) :
    bottom ≤ c * factor ∧ c * factor ≤ top := by
  rcases le_total 0 factor with h | h
  · exact ⟨hlow.1.trans (mul_le_mul_of_nonneg_right hc.1 h),
      (mul_le_mul_of_nonneg_right hc.2 h).trans hhigh.2⟩
  · exact ⟨hhigh.1.trans (mul_le_mul_of_nonpos_right hc.2 h),
      (mul_le_mul_of_nonpos_right hc.1 h).trans hlow.2⟩

/-- What bounds a coordinate at the bottom and at the top bounds it in all slices between. -/
theorem slice_mem {low high c factor t : R} (hbottom : low ≤ c ∧ c ≤ high)
    (htop : low ≤ c * factor ∧ c * factor ≤ high) (ht : 0 ≤ t) (ht' : t ≤ 1) :
    low ≤ c * (1 + t * (factor - 1)) ∧ c * (1 + t * (factor - 1)) ≤ high := by
  have hblend : c * (1 + t * (factor - 1)) = (1 - t) * c + t * (c * factor) := by ring
  have hrest : 0 ≤ 1 - t := sub_nonneg.mpr ht'
  rw [hblend]
  constructor
  · calc low = (1 - t) * low + t * low := by ring
      _ ≤ (1 - t) * c + t * (c * factor) :=
        add_le_add (mul_le_mul_of_nonneg_left hbottom.1 hrest) (mul_le_mul_of_nonneg_left htop.1 ht)
  · calc (1 - t) * c + t * (c * factor) ≤ (1 - t) * high + t * high :=
        add_le_add (mul_le_mul_of_nonneg_left hbottom.2 hrest) (mul_le_mul_of_nonneg_left htop.2 ht)
      _ = high := by ring

/-- A coordinate that is turned around the axis stays within its distance from it. -/
theorem abs_mul_le_of_turn {x r c s : R} (hx : |x| ≤ r) (h : c * c + s * s = 1) :
    |x * c| ≤ r := by
  have hc : |c| ≤ 1 := by
    rw [abs_le_one_iff_mul_self_le_one, ← h]
    exact le_add_of_nonneg_right (mul_self_nonneg s)
  calc |x * c| = |x| * |c| := abs_mul x c
    _ ≤ |x| * 1 := mul_le_mul_of_nonneg_left hc (abs_nonneg x)
    _ = |x| := mul_one _
    _ ≤ r := hx

/-! ## Boxes -/

namespace Space.Box

variable {box : Box R} {p : Vec3 R}

theorem Holds.top (h : box.Holds p) (scale : Option (Vec3 R)) :
    ((box.withTop scale).min.x ≤ p.x * (scale.getD ⟨1, 1, 1⟩).x ∧
        p.x * (scale.getD ⟨1, 1, 1⟩).x ≤ (box.withTop scale).max.x) ∧
      (box.withTop scale).min.y ≤ p.y * (scale.getD ⟨1, 1, 1⟩).y ∧
        p.y * (scale.getD ⟨1, 1, 1⟩).y ≤ (box.withTop scale).max.y := by
  cases scale with
  | none =>
    rw [withTop_none, Option.getD_none, mul_one, mul_one]
    exact ⟨⟨h.1.1, h.2.1⟩, h.1.2.1, h.2.2.1⟩
  | some s =>
    have hne : [box.min.scale ⟨s.x, s.y, 1⟩, box.max.scale ⟨s.x, s.y, 1⟩] ≠ [] :=
      List.cons_ne_nil _ _
    have hlow := Vec3.le_least_iff.mp (le_refl (box.withTop (some s)).min)
    have hhigh := Vec3.greatest_le_iff.mp (le_refl (box.withTop (some s)).max)
    have hends : ∀ e ∈ [box.min.scale ⟨s.x, s.y, 1⟩, box.max.scale ⟨s.x, s.y, 1⟩],
        (box.withTop (some s)).Holds e := fun e he =>
      ⟨(le_ofPoints_min_iff hne).mp hlow.2 e he, (ofPoints_max_le_iff hne).mp hhigh.2 e he⟩
    have hmin := hends _ List.mem_cons_self
    have hmax := hends _ (List.mem_cons_of_mem _ List.mem_cons_self)
    exact ⟨mul_mem_of_ends ⟨h.1.1, h.2.1⟩ ⟨hmin.1.1, hmin.2.1⟩ ⟨hmax.1.1, hmax.2.1⟩,
      mul_mem_of_ends ⟨h.1.2.1, h.2.2.1⟩ ⟨hmin.1.2.1, hmin.2.2.1⟩ ⟨hmax.1.2.1, hmax.2.2.1⟩⟩

theorem Holds.outlined_add {amount dx dy : R} (h : box.Holds p) (hdx : |dx| ≤ amount)
    (hdy : |dy| ≤ amount) : (box.outlined amount).Holds (p + ⟨dx, dy, 0⟩) := by
  obtain ⟨⟨hx, hy, hz⟩, hx', hy', hz'⟩ := h
  rw [outlined_of_nonneg box ((abs_nonneg dx).trans hdx)]
  rw [abs_le] at hdx hdy
  refine ⟨⟨?_, ?_, ?_⟩, ?_, ?_, ?_⟩
  · exact add_le_add hx hdx.1
  · exact add_le_add hy hdy.1
  · exact add_le_add hz neg_zero.le
  · exact add_le_add hx' hdx.2
  · exact add_le_add hy' hdy.2
  · exact add_le_add hz' le_rfl

theorem Ordered.outlined_inside {amount : R} (h : box.Ordered) (hamount : amount < 0) :
    (box.outlined amount).Inside box := by
  obtain ⟨⟨hx, hy, -⟩, hx', hy', -⟩ := h.holds_center
  rw [h.outlined_of_neg hamount]
  refine ⟨⟨le_inf ?_ hx, le_inf ?_ hy, le_rfl⟩, sup_le ?_ hx', sup_le ?_ hy', le_rfl⟩
  · exact le_add_of_nonneg_right (neg_pos.mpr hamount).le
  · exact le_add_of_nonneg_right (neg_pos.mpr hamount).le
  · exact add_le_of_nonpos_right hamount.le
  · exact add_le_of_nonpos_right hamount.le

/-- A point whose whole neighbourhood lies in a box is spared when the box shrinks by as much. -/
theorem spares_of_neighbourhood {amount : R}
    (h : ∀ dx dy, |dx| ≤ |amount| → |dy| ≤ |amount| → box.Holds (p + ⟨dx, dy, 0⟩)) :
    box.Spares |amount| p := by
  have hself : |(|amount|)| ≤ |amount| := (abs_abs amount).le
  have hneg : |(-|amount|)| ≤ |amount| := (abs_neg _).le.trans hself
  obtain ⟨⟨hx, hy, -⟩, -⟩ := h _ _ hneg hneg
  obtain ⟨-, hx', hy', -⟩ := h _ _ hself hself
  exact ⟨.inr ⟨le_add_neg_iff_add_le.mp hx, le_sub_iff_add_le.mpr hx'⟩,
    .inr ⟨le_add_neg_iff_add_le.mp hy, le_sub_iff_add_le.mpr hy'⟩⟩

end Space.Box

/-! ## Parts -/

namespace Part

variable {part : Part R} {profile : Extent R}

theorem contains_slice (hkind : part.head.kind = .linearExtrude)
    (hprofile : part.profile = .ok profile) {height : R}
    (hheight : part.head.liftHeight = .ok height) (hpos : 0 ≤ height) :
    ∃ extent, part.extent = .ok extent ∧ ∀ p, profile.box.contains p → ∀ t, 0 ≤ t → t ≤ 1 →
      extent.box.contains (part.head.slice height t p) := by
  have hchange : part.head.reshape? = some part.head.liftedExtent := by
    rw [Head.reshape?, hkind]
  have hextent := extent_of_reshape? hchange hprofile
  rw [Head.liftedExtent_eq, hheight] at hextent
  refine ⟨_, hextent, fun p hp t ht ht' => ?_⟩
  rw [Box.contains_iff] at hp ⊢
  have hground : part.head.ground height =
      if part.head.isSet "center" then -height / (1 + 1) else 0 := by
    rw [Head.ground, one_add_one_eq_two]
  obtain ⟨htopx, htopy⟩ := hp.top ((part.head.named.get? "scale").bind Value.vector?)
  have hlow (scale) := (profile.box.withTop_min_le scale).trans hp.1
  have hhigh (scale) := hp.2.trans (profile.box.le_withTop_max scale)
  have hx := slice_mem ⟨(hlow _).1, (hhigh _).1⟩ htopx ht ht'
  have hy := slice_mem ⟨(hlow _).2.1, (hhigh _).2.1⟩ htopy ht ht'
  unfold Head.slice
  rw [hground]
  refine ⟨⟨hx.1, hy.1, ?_⟩, hx.2, hy.2, ?_⟩
  · exact le_add_of_nonneg_right (mul_nonneg ht hpos)
  · exact add_le_add_right (mul_le_of_le_one_left hpos ht') _

theorem contains_turned (hkind : part.head.kind = .rotateExtrude)
    (hprofile : part.profile = .ok profile) :
    ∃ extent, part.extent = .ok extent ∧ ∀ p, profile.box.contains p →
      ∀ c s : R, c * c + s * s = 1 → extent.box.contains ⟨p.x * c, p.x * s, p.y⟩ := by
  have hchange : part.head.reshape? = some fun profile => .ok (Head.sweptExtent profile) := by
    rw [Head.reshape?, hkind]
  have hextent : part.extent = .ok (Head.sweptExtent profile) := by
    rw [extent_of_reshape? hchange hprofile]
  refine ⟨_, hextent, fun p hp c s hturn => ?_⟩
  rw [Box.contains_iff] at hp ⊢
  have hx : |p.x| ≤ Coordinate.greatest (Coordinate.magnitude profile.box.min.x)
      (Coordinate.magnitude profile.box.max.x) := by
    rw [Exact.greatest_eq, Exact.magnitude_eq, Exact.magnitude_eq]
    exact abs_le_max_abs_abs hp.1.1 hp.2.1
  obtain ⟨hc, hc'⟩ := abs_le.mp (abs_mul_le_of_turn hx hturn)
  obtain ⟨hs, hs'⟩ := abs_le.mp (abs_mul_le_of_turn hx ((add_comm _ _).trans hturn))
  exact ⟨⟨hc, hs, hp.1.2.1⟩, hc', hs', hp.2.2.1⟩

theorem contains_shadow (hkind : part.head.kind = .projection)
    (hprofile : part.profile = .ok profile) :
    ∃ extent, part.extent = .ok extent ∧ ∀ p, profile.box.contains p →
      extent.box.contains ⟨p.x, p.y, 0⟩ := by
  have hchange : part.head.reshape? = some fun profile => .ok (Head.shadowExtent profile) := by
    rw [Head.reshape?, hkind]
  have hextent : part.extent = .ok (Head.shadowExtent profile) := by
    rw [extent_of_reshape? hchange hprofile]
  refine ⟨_, hextent, fun p hp => ?_⟩
  rw [Box.contains_iff] at hp ⊢
  exact ⟨⟨hp.1.1, hp.1.2.1, le_rfl⟩, hp.2.1, hp.2.2.1, le_rfl⟩

/-- A part that reshapes a profile has a box that holds what it makes of the points in the box of
the profile: the slices of a lift, the circles of a sweep, the shadow, and the squares around the
points for an outline. An outline that is moved inwards has its box inside that of the profile, and
keeps the points whose neighbourhood lies in it. -/
theorem contains_reshaped (hprofile : part.profile = .ok profile)
    (hordered : profile.box.Ordered) :
    (part.head.kind = .linearExtrude → ∀ height, part.head.liftHeight = .ok height → 0 ≤ height →
        ∃ extent, part.extent = .ok extent ∧ ∀ p, profile.box.contains p →
          ∀ t, 0 ≤ t → t ≤ 1 → extent.box.contains (part.head.slice height t p)) ∧
      (part.head.kind = .rotateExtrude →
        ∃ extent, part.extent = .ok extent ∧ ∀ p, profile.box.contains p →
          ∀ c s : R, c * c + s * s = 1 → extent.box.contains ⟨p.x * c, p.x * s, p.y⟩) ∧
      (part.head.kind = .projection →
        ∃ extent, part.extent = .ok extent ∧ ∀ p, profile.box.contains p →
          extent.box.contains ⟨p.x, p.y, 0⟩) ∧
      (part.head.kind = .offset → ∀ amount, part.head.outlineAmount = .ok amount →
        ∃ extent, part.extent = .ok extent ∧
          (0 ≤ amount → ∀ p, profile.box.contains p → ∀ dx dy, |dx| ≤ amount → |dy| ≤ amount →
            extent.box.contains (p + ⟨dx, dy, 0⟩)) ∧
          (amount < 0 → extent.box.Inside profile.box ∧ ∀ p, profile.box.contains p →
            (∀ dx dy, |dx| ≤ |amount| → |dy| ≤ |amount| →
              profile.box.contains (p + ⟨dx, dy, 0⟩)) → extent.box.contains p)) := by
  refine ⟨fun hkind height => contains_slice hkind hprofile,
    fun hkind => contains_turned hkind hprofile, fun hkind => contains_shadow hkind hprofile,
    fun hkind amount hamount => ⟨_, extent_of_outline hkind hamount hprofile, ?_, ?_⟩⟩
  · intro _ p hp dx dy hdx hdy
    rw [Box.contains_iff] at hp ⊢
    exact hp.outlined_add hdx hdy
  · intro hneg
    refine ⟨hordered.outlined_inside hneg, fun p hp hnear => ?_⟩
    simp only [Box.contains_iff] at hp hnear ⊢
    rw [hp.outlined_iff hneg, ← abs_of_neg hneg]
    exact Box.spares_of_neighbourhood hnear

/-! ## A tapered tile -/

def tile : Part ℚ := ⟨0, .ofKind .cube [.vector ⟨3, 2, 1⟩] ∅ .plain, []⟩

def laidTile : Part ℚ := ⟨1, .ofKind .translate [.vector ⟨-2, 1, 0⟩] ∅ .motion, [tile]⟩

def laidExtent : Extent ℚ := ⟨⟨⟨-2, 1, 0⟩, ⟨1, 3, 1⟩⟩, ⟨-1 / 2, 2, 1 / 2⟩⟩

/-- Lifted across the plane to a top of twice the size on the other side of both axes. -/
def tapered : Part ℚ :=
  ⟨2, .ofKind .linearExtrude []
    (.ofList [("center", .bool true), ("height", .int 4), ("scale", .int (-2))]) .plain, [laidTile]⟩

def inset : Part ℚ :=
  ⟨3, .ofKind .offset [] (.ofList [("delta", .real (-1 / 2))]) .plain, [laidTile]⟩

theorem laidTile_extent : laidTile.extent = .ok laidExtent := by
  have h : laidTile.extent.map (fun extent => (extent.box, extent.centroid)) =
      .ok (laidExtent.box, laidExtent.centroid) := by decide +kernel
  obtain ⟨⟨box, centroid⟩, hextent, hpair⟩ := Fault.exists_of_map h
  cases hpair
  exact hextent

/-- The tapered tile has all its slices in its box, and the inset one keeps what is far enough from
its sides. -/
theorem contains_reshaped_tile :
    laidExtent.box.Ordered ∧ tapered.profile = .ok laidExtent ∧ inset.profile = .ok laidExtent ∧
      (∃ extent, tapered.extent = .ok extent ∧ ∀ p, laidExtent.box.contains p →
        ∀ t, 0 ≤ t → t ≤ 1 → extent.box.contains
          ⟨p.x * (1 + t * (-2 - 1)), p.y * (1 + t * (-2 - 1)), -4 / 2 + t * 4⟩) ∧
      ∃ extent, inset.extent = .ok extent ∧ extent.box.Inside laidExtent.box ∧
        extent.box.contains ⟨-1, 2, 1⟩ := by
  have hordered : laidExtent.box.Ordered := by constructor <;> decide +kernel
  have hprofile (part : Part ℚ) (hparts : part.parts = [laidTile]) :
      part.profile = .ok laidExtent := by
    rw [profile, hparts, List.map_singleton, laidTile_extent]
    rfl
  have htapered := hprofile tapered rfl
  have hinset := hprofile inset rfl
  refine ⟨hordered, htapered, hinset, ?_, ?_⟩
  · exact (contains_reshaped htapered hordered).1 rfl 4 rfl (by decide)
  · obtain ⟨extent, hextent, -, hinwards⟩ :=
      (contains_reshaped hinset hordered).2.2.2 rfl (-1 / 2) rfl
    obtain ⟨hinside, hkept⟩ := hinwards (by decide +kernel)
    have habs : |(-1 / 2 : ℚ)| = 1 / 2 := by decide +kernel
    refine ⟨extent, hextent, hinside, hkept _ (by decide +kernel) fun dx dy hdx hdy => ?_⟩
    rw [habs, abs_le] at hdx hdy
    rw [Box.contains_iff]
    have hx : (-2 : ℚ) ≤ -1 + dx ∧ -1 + dx ≤ 1 := by constructor <;> linarith
    have hy : (1 : ℚ) ≤ 2 + dy ∧ 2 + dy ≤ 3 := by constructor <;> linarith
    have hz : (0 : ℚ) ≤ 1 + 0 ∧ (1 + 0 : ℚ) ≤ 1 := by constructor <;> norm_num
    exact ⟨⟨hx.1, hy.1, hz.1⟩, hx.2, hy.2, hz.2⟩

end Part

end SolidScript
