import Mathlib.Tactic.FieldSimp
import Mathlib.Tactic.Linarith
import Mathlib.Tactic.Ring
import SolidScript.Proofs.Space.Exact

/-!
# What a box holds

Points are ordered coordinate by coordinate, and a box holds the points between its corners. The box
around some points is the least one that holds them (`Box.le_ofPoints_min_iff`,
`Box.ofPoints_max_le_iff`).

A matrix without perspective has on each axis a corner of the box where its row is lowest, and the
opposite corner is where it is highest. These two bound the image (`Box.transform_eq`), so what the
box holds is taken to what the image of the box holds, and its center to the center. The image is
the least box with the first of these properties (`Box.Ordered.hull_transform`).
-/

namespace SolidScript.Space

variable {R : Type}

/-! ## Points between corners -/

section Order

variable [LinearOrder R]

/-- Points are ordered coordinate by coordinate. -/
instance : PartialOrder (Vec3 R) where
  le v w := v.x ≤ w.x ∧ v.y ≤ w.y ∧ v.z ≤ w.z
  le_refl v := ⟨le_rfl, le_rfl, le_rfl⟩
  le_trans u v w huv hvw :=
    ⟨huv.1.trans hvw.1, huv.2.1.trans hvw.2.1, huv.2.2.trans hvw.2.2⟩
  le_antisymm v w hvw hwv := by
    obtain ⟨vx, vy, vz⟩ := v
    obtain ⟨wx, wy, wz⟩ := w
    obtain rfl := le_antisymm hvw.1 hwv.1
    obtain rfl := le_antisymm hvw.2.1 hwv.2.1
    obtain rfl := le_antisymm hvw.2.2 hwv.2.2
    rfl

theorem Vec3.le_iff {v w : Vec3 R} : v ≤ w ↔ v.x ≤ w.x ∧ v.y ≤ w.y ∧ v.z ≤ w.z := Iff.rfl

namespace Box

variable {b : Box R} {p : Vec3 R}

/-- A box holds the points between its corners. -/
def Holds (b : Box R) (p : Vec3 R) : Prop := b.min ≤ p ∧ p ≤ b.max

/-- A box lies inside another one, so it holds no other points. -/
def Inside (inner outer : Box R) : Prop := outer.min ≤ inner.min ∧ inner.max ≤ outer.max

theorem Holds.ordered (h : b.Holds p) : b.Ordered :=
  ⟨h.1.1.trans h.2.1, h.1.2.1.trans h.2.2.1, h.1.2.2.trans h.2.2.2⟩

omit [LinearOrder R] in
theorem mem_corners_iff :
    p ∈ b.corners ↔ (p.x = b.min.x ∨ p.x = b.max.x) ∧ (p.y = b.min.y ∨ p.y = b.max.y) ∧
      (p.z = b.min.z ∨ p.z = b.max.z) := by
  obtain ⟨x, y, z⟩ := p
  simp only [corners, List.mem_flatMap, List.mem_map, List.mem_cons, List.not_mem_nil, or_false,
    Vec3.mk.injEq]
  constructor
  · rintro ⟨_, hz, _, hy, _, hx, rfl, rfl, rfl⟩
    exact ⟨hx, hy, hz⟩
  · rintro ⟨hx, hy, hz⟩
    exact ⟨z, hz, y, hy, x, hx, rfl, rfl, rfl⟩

theorem Ordered.holds_corner (h : b.Ordered) (hp : p ∈ b.corners) : b.Holds p := by
  obtain ⟨hx, hy, hz⟩ := mem_corners_iff.mp hp
  have hside {low high c : R} (hle : low ≤ high) (hc : c = low ∨ c = high) :
      low ≤ c ∧ c ≤ high := by
    rcases hc with rfl | rfl
    · exact ⟨le_rfl, hle⟩
    · exact ⟨hle, le_rfl⟩
  exact ⟨⟨(hside h.x hx).1, (hside h.y hy).1, (hside h.z hz).1⟩,
    ⟨(hside h.x hx).2, (hside h.y hy).2, (hside h.z hz).2⟩⟩

end Box

end Order

theorem Box.center_eq [Field R] (b : Box R) :
    b.center = ⟨(b.min.x + b.max.x) / (1 + 1), (b.min.y + b.max.y) / (1 + 1),
      (b.min.z + b.max.z) / (1 + 1)⟩ := rfl

/-! ## Rows on a box -/

namespace Row

section

variable [LinearOrder R] [Zero R]

/-- The end of a side where a coordinate with the factor weighs least. -/
def lowEnd (factor low high : R) : R := if 0 ≤ factor then low else high

def lowest (r : Row R) (b : Box R) : Vec3 R :=
  ⟨lowEnd r.x b.min.x b.max.x, lowEnd r.y b.min.y b.max.y, lowEnd r.z b.min.z b.max.z⟩

def highest (r : Row R) (b : Box R) : Vec3 R :=
  ⟨lowEnd r.x b.max.x b.min.x, lowEnd r.y b.max.y b.min.y, lowEnd r.z b.max.z b.min.z⟩

theorem lowEnd_eq_or (factor low high : R) :
    lowEnd factor low high = low ∨ lowEnd factor low high = high := by
  unfold lowEnd
  split
  · exact .inl rfl
  · exact .inr rfl

theorem lowest_mem_corners (r : Row R) (b : Box R) : r.lowest b ∈ b.corners :=
  Box.mem_corners_iff.mpr ⟨lowEnd_eq_or _ _ _, lowEnd_eq_or _ _ _, lowEnd_eq_or _ _ _⟩

theorem highest_mem_corners (r : Row R) (b : Box R) : r.highest b ∈ b.corners :=
  Box.mem_corners_iff.mpr
    ⟨(lowEnd_eq_or _ _ _).symm, (lowEnd_eq_or _ _ _).symm, (lowEnd_eq_or _ _ _).symm⟩

end

variable [Field R] [LinearOrder R] [IsStrictOrderedRing R] {r : Row R} {b : Box R} {p : Vec3 R}

theorem mul_lowEnd_le {factor low c high : R} (hlow : low ≤ c) (hhigh : c ≤ high) :
    factor * lowEnd factor low high ≤ factor * c := by
  unfold lowEnd
  split
  · rename_i h
    exact mul_le_mul_of_nonneg_left hlow h
  · rename_i h
    exact mul_le_mul_of_nonpos_left hhigh (not_le.mp h).le

theorem le_mul_lowEnd {factor low c high : R} (hlow : low ≤ c) (hhigh : c ≤ high) :
    factor * c ≤ factor * lowEnd factor high low := by
  unfold lowEnd
  split
  · rename_i h
    exact mul_le_mul_of_nonneg_left hhigh h
  · rename_i h
    exact mul_le_mul_of_nonpos_left hlow (not_le.mp h).le

theorem rowAt_lowest_le (r : Row R) (h : b.Holds p) :
    Homogeneous.rowAt r (r.lowest b) ≤ Homogeneous.rowAt r p := by
  have hx : r.x * (r.lowest b).x ≤ r.x * p.x := mul_lowEnd_le h.1.1 h.2.1
  have hy : r.y * (r.lowest b).y ≤ r.y * p.y := mul_lowEnd_le h.1.2.1 h.2.2.1
  have hz : r.z * (r.lowest b).z ≤ r.z * p.z := mul_lowEnd_le h.1.2.2 h.2.2.2
  unfold Homogeneous.rowAt
  linarith

theorem le_rowAt_highest (r : Row R) (h : b.Holds p) :
    Homogeneous.rowAt r p ≤ Homogeneous.rowAt r (r.highest b) := by
  have hx : r.x * p.x ≤ r.x * (r.highest b).x := le_mul_lowEnd h.1.1 h.2.1
  have hy : r.y * p.y ≤ r.y * (r.highest b).y := le_mul_lowEnd h.1.2.1 h.2.2.1
  have hz : r.z * p.z ≤ r.z * (r.highest b).z := le_mul_lowEnd h.1.2.2 h.2.2.2
  unfold Homogeneous.rowAt
  linarith

/-- A row is lowest and highest at opposite corners, so the center lies in the middle. -/
theorem rowAt_center (r : Row R) (b : Box R) :
    Homogeneous.rowAt r b.center =
      (Homogeneous.rowAt r (r.lowest b) + Homogeneous.rowAt r (r.highest b)) / (1 + 1) := by
  have hends (factor low high : R) :
      lowEnd factor low high + lowEnd factor high low = low + high := by
    unfold lowEnd
    split
    · rfl
    · exact add_comm high low
  have hx : (r.lowest b).x + (r.highest b).x = b.min.x + b.max.x := hends _ _ _
  have hy : (r.lowest b).y + (r.highest b).y = b.min.y + b.max.y := hends _ _ _
  have hz : (r.lowest b).z + (r.highest b).z = b.min.z + b.max.z := hends _ _ _
  rw [Box.center_eq, ← hx, ← hy, ← hz]
  unfold Homogeneous.rowAt
  have htwo : (1 + 1 : R) ≠ 0 := by
    rw [one_add_one_eq_two]
    exact two_ne_zero
  field_simp
  ring

end Row

/-! ## Boxes over exact coordinates -/

variable [Field R] [LinearOrder R] [BEq R] [Coordinate R] [Exact R]

theorem Vec3.le_least_iff {u v w : Vec3 R} : u ≤ v.least w ↔ u ≤ v ∧ u ≤ w := by
  simp only [le_iff, least, zipWith, Exact.least_eq, le_min_iff]
  tauto

theorem Vec3.greatest_le_iff {u v w : Vec3 R} : v.greatest w ≤ u ↔ v ≤ u ∧ w ≤ u := by
  simp only [le_iff, greatest, zipWith, Exact.greatest_eq, max_le_iff]
  tauto

namespace Box

variable {b : Box R} {p v : Vec3 R} {points : List (Vec3 R)} {m : Homogeneous R}

theorem contains_iff : b.contains p ↔ b.Holds p := by
  simp only [contains, Holds, Vec3.le_iff, Bool.and_eq_true, Exact.atMost_iff]
  tauto

theorem Ordered.holds_center (h : b.Ordered) : b.Holds b.center := by
  have hmiddle {low high : R} (hle : low ≤ high) :
      low ≤ (low + high) / (1 + 1) ∧ (low + high) / (1 + 1) ≤ high := by
    rw [one_add_one_eq_two]
    constructor <;> linarith
  exact ⟨⟨(hmiddle h.x).1, (hmiddle h.y).1, (hmiddle h.z).1⟩,
    ⟨(hmiddle h.x).2, (hmiddle h.y).2, (hmiddle h.z).2⟩⟩

theorem le_foldl_extend_min_iff :
    v ≤ (points.foldl extend b).min ↔ v ≤ b.min ∧ ∀ p ∈ points, v ≤ p := by
  induction points generalizing b with
  | nil => simp
  | cons p rest ih =>
    rw [List.foldl_cons, ih, extend, Vec3.le_least_iff, List.forall_mem_cons, and_assoc]

theorem foldl_extend_max_le_iff :
    (points.foldl extend b).max ≤ v ↔ b.max ≤ v ∧ ∀ p ∈ points, p ≤ v := by
  induction points generalizing b with
  | nil => simp
  | cons p rest ih =>
    rw [List.foldl_cons, ih, extend, Vec3.greatest_le_iff, List.forall_mem_cons, and_assoc]

theorem ofPoint_eq (p : Vec3 R) : ofPoint p = ⟨p, p⟩ := by
  simp only [ofPoint, Vec3.map, Exact.lowerBound_eq, Exact.upperBound_eq]

/-- The lower corner of the box around points is the greatest point below all of them. -/
theorem le_ofPoints_min_iff (h : points ≠ []) :
    v ≤ (ofPoints points).min ↔ ∀ p ∈ points, v ≤ p := by
  cases points with
  | nil => exact absurd rfl h
  | cons p rest => rw [ofPoints, le_foldl_extend_min_iff, ofPoint_eq, List.forall_mem_cons]

/-- The upper corner of the box around points is the least point above all of them. -/
theorem ofPoints_max_le_iff (h : points ≠ []) :
    (ofPoints points).max ≤ v ↔ ∀ p ∈ points, p ≤ v := by
  cases points with
  | nil => exact absurd rfl h
  | cons p rest => rw [ofPoints, foldl_extend_max_le_iff, ofPoint_eq, List.forall_mem_cons]

end Box

/-! ## Matrices without perspective -/

namespace Homogeneous

/-- A matrix has no perspective if it leaves the last homogeneous coordinate as it is. -/
def IsAffine (m : Homogeneous R) : Prop := m.w = ⟨0, 0, 0, 1⟩

variable {m : Homogeneous R}

omit [Coordinate R] [LinearOrder R] [Exact R] in
theorem IsAffine.onPoint_eq [LawfulBEq R] (hm : m.IsAffine) (p : Vec3 R) :
    m.onPoint p = ⟨rowAt m.x p, rowAt m.y p, rowAt m.z p⟩ := by
  have hlast : 0 + m.w.x * p.x + m.w.y * p.y + m.w.z * p.z + m.w.w = 1 := by
    rw [hm]
    ring
  have hone : ((1 : R) == 0) = false := beq_eq_false_iff_ne.mpr one_ne_zero
  unfold onPoint
  simp only [hlast, hone, Bool.false_eq_true, if_false, Vec3.div, Vec3.map, div_one]

end Homogeneous

namespace Box

variable {b : Box R} {p : Vec3 R} {m : Homogeneous R}

/-- The image of a box reaches on each axis from where the row of the matrix is lowest to where it
is highest. -/
theorem transform_eq (hm : m.IsAffine) (hb : b.Ordered) :
    b.transform m =
      ⟨⟨Homogeneous.rowAt m.x (m.x.lowest b), Homogeneous.rowAt m.y (m.y.lowest b),
          Homogeneous.rowAt m.z (m.z.lowest b)⟩,
        ⟨Homogeneous.rowAt m.x (m.x.highest b), Homogeneous.rowAt m.y (m.y.highest b),
          Homogeneous.rowAt m.z (m.z.highest b)⟩⟩ := by
  have hne : b.corners.map m.onPoint ≠ [] := List.cons_ne_nil _ _
  have hmin {c : Vec3 R} (hc : c ∈ b.corners) : (b.transform m).min ≤ m.onPoint c :=
    (le_ofPoints_min_iff hne).mp le_rfl _ (List.mem_map_of_mem hc)
  have hmax {c : Vec3 R} (hc : c ∈ b.corners) : m.onPoint c ≤ (b.transform m).max :=
    (ofPoints_max_le_iff hne).mp le_rfl _ (List.mem_map_of_mem hc)
  have hlow (r : Row R) := r.lowest_mem_corners b
  have hhigh (r : Row R) := r.highest_mem_corners b
  simp only [hm.onPoint_eq] at hmin hmax
  refine congrArg₂ Box.mk (le_antisymm ?_ ?_) (le_antisymm ?_ ?_)
  · exact ⟨(hmin (hlow m.x)).1, (hmin (hlow m.y)).2.1, (hmin (hlow m.z)).2.2⟩
  · refine (le_ofPoints_min_iff hne).mpr (List.forall_mem_map.mpr fun c hc => ?_)
    have hholds := hb.holds_corner hc
    rw [hm.onPoint_eq]
    exact ⟨m.x.rowAt_lowest_le hholds, m.y.rowAt_lowest_le hholds, m.z.rowAt_lowest_le hholds⟩
  · refine (ofPoints_max_le_iff hne).mpr (List.forall_mem_map.mpr fun c hc => ?_)
    have hholds := hb.holds_corner hc
    rw [hm.onPoint_eq]
    exact ⟨m.x.le_rowAt_highest hholds, m.y.le_rowAt_highest hholds, m.z.le_rowAt_highest hholds⟩
  · exact ⟨(hmax (hhigh m.x)).1, (hmax (hhigh m.y)).2.1, (hmax (hhigh m.z)).2.2⟩

theorem Holds.transform (h : b.Holds p) (hm : m.IsAffine) :
    (b.transform m).Holds (m.onPoint p) := by
  rw [transform_eq hm h.ordered, hm.onPoint_eq]
  exact ⟨⟨m.x.rowAt_lowest_le h, m.y.rowAt_lowest_le h, m.z.rowAt_lowest_le h⟩,
    ⟨m.x.le_rowAt_highest h, m.y.le_rowAt_highest h, m.z.le_rowAt_highest h⟩⟩

theorem Ordered.center_transform (hb : b.Ordered) (hm : m.IsAffine) :
    (b.transform m).center = m.onPoint b.center := by
  rw [transform_eq hm hb, hm.onPoint_eq, Row.rowAt_center, Row.rowAt_center, Row.rowAt_center]
  rfl

theorem inside_of_corners {outer : Box R} (h : ∀ c ∈ b.corners, outer.Holds (m.onPoint c)) :
    (b.transform m).Inside outer := by
  have hne : b.corners.map m.onPoint ≠ [] := List.cons_ne_nil _ _
  constructor
  · exact (le_ofPoints_min_iff hne).mpr (List.forall_mem_map.mpr fun c hc => (h c hc).1)
  · exact (ofPoints_max_le_iff hne).mpr (List.forall_mem_map.mpr fun c hc => (h c hc).2)

/-- The image of a box under a matrix without perspective contains the images of all its points,
lies inside every box that does, and has its center where the matrix takes the center of the box. -/
theorem Ordered.hull_transform (hb : b.Ordered) (hm : m.IsAffine) :
    (∀ p, b.contains p → (b.transform m).contains (m.onPoint p)) ∧
      (∀ outer : Box R, (∀ p, b.contains p → outer.contains (m.onPoint p)) →
        (b.transform m).Inside outer) ∧
      (b.transform m).center = m.onPoint b.center := by
  simp only [contains_iff]
  refine ⟨fun p hp => hp.transform hm, fun outer houter => ?_, hb.center_transform hm⟩
  exact inside_of_corners fun c hc => houter c (hb.holds_corner hc)

/-! ## A sheared crate -/

def crate : Box ℚ := ⟨⟨-1, 0, 2⟩, ⟨3, 1, 4⟩⟩

/-- Each row mixes two axes, and two of the weights are negative. -/
def shear : Homogeneous ℚ := ⟨⟨1, -2, 0, 3⟩, ⟨0, 1, 1, 0⟩, ⟨-1, 0, 2, 5⟩, ⟨0, 0, 0, 1⟩⟩

def shearedCrate : Box ℚ := ⟨⟨0, 2, 6⟩, ⟨6, 5, 14⟩⟩

/-- The least box around the sheared crate has a lower corner that is no image of a corner. -/
theorem hull_transform_crate :
    crate.Ordered ∧ shear.IsAffine ∧ crate.transform shear = shearedCrate ∧
      (∀ c ∈ crate.corners, shear.onPoint c ≠ shearedCrate.min) ∧
      (∀ p, crate.contains p → shearedCrate.contains (shear.onPoint p)) ∧
      (∀ outer : Box ℚ, (∀ p, crate.contains p → outer.contains (shear.onPoint p)) →
        shearedCrate.Inside outer) ∧
      shearedCrate.center = shear.onPoint crate.center := by
  have hcrate : crate.Ordered := ⟨by decide, by decide, by decide⟩
  have hshear : shear.IsAffine := rfl
  have himage : crate.transform shear = shearedCrate := by decide +kernel
  refine ⟨hcrate, hshear, himage, by decide +kernel, ?_⟩
  rw [← himage]
  exact hcrate.hull_transform hshear

end Box

end SolidScript.Space
