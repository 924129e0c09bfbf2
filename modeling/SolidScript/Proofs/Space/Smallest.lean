import SolidScript.Proofs.Number.Order
import SolidScript.Space.Box

/-!
# The smallest box

Over doubles a box can reach to infinity, and only an undefined coordinate keeps a point out of
every box. A box is the smallest around some points if it holds them and lies in every box that
holds them (`Box.IsSmallestAround`). There is no other one but for the signs of zeros
(`Box.IsSmallestAround.beq`), so it does not matter how it was found.

Points are joined to a box one by one, and boxes are joined one by one. The points widen the box
with its corners at the wrong ends (`Box.ofPoints_eq_foldl_extend`). Both are joins of boxes from
left to right, as a point is a box (`Box.ofPoints_cons`), and a join of boxes lies in a box if and
only if each of them does (`Box.region_foldl_union_subset_iff`).
-/

namespace SolidScript.Space

open Number

/-! ## Points -/

namespace Vec3

variable {u v w : Vec3 Float}

def IsNumber (v : Vec3 Float) : Prop := ∀ c ∈ v.toList, c.isNaN = false

instance (v : Vec3 Float) : Decidable v.IsNumber :=
  inferInstanceAs (Decidable (∀ c ∈ v.toList, c.isNaN = false))

structure AtMost (v w : Vec3 Float) : Prop where
  x : v.x ≤ w.x
  y : v.y ≤ w.y
  z : v.z ≤ w.z

theorem atMost_self_iff : v.AtMost v ↔ v.IsNumber := by
  simp only [IsNumber, toList, List.forall_mem_cons, ← le_self_iff]
  exact ⟨fun h => ⟨h.x, h.y, h.z, List.forall_mem_nil _⟩, fun h => ⟨h.1, h.2.1, h.2.2.1⟩⟩

theorem AtMost.trans (huv : u.AtMost v) (hvw : v.AtMost w) : u.AtMost w :=
  ⟨IsTrans.trans _ _ _ huv.x hvw.x, IsTrans.trans _ _ _ huv.y hvw.y,
    IsTrans.trans _ _ _ huv.z hvw.z⟩

theorem AtMost.left (h : v.AtMost w) : v.AtMost v :=
  ⟨(le_self_of_le h.x).1, (le_self_of_le h.y).1, (le_self_of_le h.z).1⟩

theorem AtMost.right (h : v.AtMost w) : w.AtMost w :=
  ⟨(le_self_of_le h.x).2, (le_self_of_le h.y).2, (le_self_of_le h.z).2⟩

theorem AtMost.beq (hvw : v.AtMost w) (hwv : w.AtMost v) : v == w := by
  show (v.x == w.x && (v.y == w.y && v.z == w.z)) = true
  rw [beq_of_le_of_le hvw.x hwv.x, beq_of_le_of_le hvw.y hwv.y, beq_of_le_of_le hvw.z hwv.z]
  rfl

theorem atMost_iff_and {u u' u'' v v' v'' : Vec3 Float}
    (hx : u.x ≤ v.x ↔ u'.x ≤ v'.x ∧ u''.x ≤ v''.x) (hy : u.y ≤ v.y ↔ u'.y ≤ v'.y ∧ u''.y ≤ v''.y)
    (hz : u.z ≤ v.z ↔ u'.z ≤ v'.z ∧ u''.z ≤ v''.z) :
    u.AtMost v ↔ u'.AtMost v' ∧ u''.AtMost v'' := by
  constructor
  · intro h
    exact ⟨⟨(hx.mp h.x).1, (hy.mp h.y).1, (hz.mp h.z).1⟩,
      ⟨(hx.mp h.x).2, (hy.mp h.y).2, (hz.mp h.z).2⟩⟩
  · rintro ⟨h', h''⟩
    exact ⟨hx.mpr ⟨h'.x, h''.x⟩, hy.mpr ⟨h'.y, h''.y⟩, hz.mpr ⟨h'.z, h''.z⟩⟩

theorem atMost_least_iff (hv : v.AtMost v) (hw : w.AtMost w) :
    u.AtMost (v.least w) ↔ u.AtMost v ∧ u.AtMost w :=
  atMost_iff_and (Number.le_least_iff hv.x hw.x) (Number.le_least_iff hv.y hw.y)
    (Number.le_least_iff hv.z hw.z)

theorem greatest_atMost_iff (hv : v.AtMost v) (hw : w.AtMost w) :
    (v.greatest w).AtMost u ↔ v.AtMost u ∧ w.AtMost u :=
  atMost_iff_and (Number.greatest_le_iff hv.x hw.x) (Number.greatest_le_iff hv.y hw.y)
    (Number.greatest_le_iff hv.z hw.z)

theorem least_atMost (hv : v.AtMost v) (hw : w.AtMost w) : (v.least w).AtMost v :=
  ⟨(Number.least_le hv.x hw.x).1, (Number.least_le hv.y hw.y).1,
    (Number.least_le hv.z hw.z).1⟩

theorem atMost_greatest (hv : v.AtMost v) (hw : w.AtMost w) : v.AtMost (v.greatest w) :=
  ⟨(Number.le_greatest hv.x hw.x).1, (Number.le_greatest hv.y hw.y).1,
    (Number.le_greatest hv.z hw.z).1⟩

end Vec3

/-! ## Boxes -/

namespace Box

variable {a b first outer : Box Float} {rest : List (Box Float)} {p : Vec3 Float}
  {points : List (Vec3 Float)} {contents : Set (Vec3 Float)}

def region (b : Box Float) : Set (Vec3 Float) := {p | b.contains p}

theorem mem_region_iff : p ∈ b.region ↔ b.min.AtMost p ∧ p.AtMost b.max := by
  show ((decide (b.min.x ≤ p.x) && decide (p.x ≤ b.max.x)) &&
    (decide (b.min.y ≤ p.y) && decide (p.y ≤ b.max.y)) &&
    (decide (b.min.z ≤ p.z) && decide (p.z ≤ b.max.z))) = true ↔ _
  simp only [Bool.and_eq_true, decide_eq_true_iff]
  constructor
  · rintro ⟨⟨⟨hx, hx'⟩, hy, hy'⟩, hz, hz'⟩
    exact ⟨⟨hx, hy, hz⟩, hx', hy', hz'⟩
  · rintro ⟨h, h'⟩
    exact ⟨⟨⟨h.x, h'.x⟩, h.y, h'.y⟩, h.z, h'.z⟩

/-- The lower corner is at most the upper corner, so that no coordinate is undefined. -/
def IsProper (b : Box Float) : Prop := b.min.AtMost b.max

theorem region_subset_iff (hb : b.IsProper) :
    b.region ⊆ outer.region ↔ outer.min.AtMost b.min ∧ b.max.AtMost outer.max := by
  constructor
  · intro h
    have hmin : b.min ∈ b.region := mem_region_iff.mpr ⟨hb.left, hb⟩
    have hmax : b.max ∈ b.region := mem_region_iff.mpr ⟨hb, hb.right⟩
    exact ⟨(mem_region_iff.mp (h hmin)).1, (mem_region_iff.mp (h hmax)).2⟩
  · rintro ⟨hmin, hmax⟩ p hp
    obtain ⟨hlow, hhigh⟩ := mem_region_iff.mp hp
    exact mem_region_iff.mpr ⟨hmin.trans hlow, hhigh.trans hmax⟩

theorem isProper_of_mem_region (h : p ∈ b.region) : b.IsProper :=
  (mem_region_iff.mp h).1.trans (mem_region_iff.mp h).2

/-! ## Joins -/

section

variable {R : Type} [Coordinate R] [Std.Associative (Coordinate.least : R → R → R)]
  [Std.Associative (Coordinate.greatest : R → R → R)]

instance : Std.Associative (union : Box R → Box R → Box R) where
  assoc a b c := by
    simp only [union, Vec3.least, Vec3.greatest, Vec3.zipWith, Std.Associative.assoc]

end

theorem IsProper.union (ha : a.IsProper) (hb : b.IsProper) : (a.union b).IsProper :=
  (Vec3.least_atMost ha.left hb.left).trans (ha.trans (Vec3.atMost_greatest ha.right hb.right))

theorem region_union_subset_iff (ha : a.IsProper) (hb : b.IsProper) :
    (a.union b).region ⊆ outer.region ↔ a.region ⊆ outer.region ∧ b.region ⊆ outer.region := by
  rw [region_subset_iff (ha.union hb), region_subset_iff ha, region_subset_iff hb]
  show outer.min.AtMost (a.min.least b.min) ∧ (a.max.greatest b.max).AtMost outer.max ↔ _
  rw [Vec3.atMost_least_iff ha.left hb.left, Vec3.greatest_atMost_iff ha.right hb.right,
    and_and_and_comm]

/-- A join lies in just the boxes that all of the joined boxes lie in. -/
theorem region_foldl_union_subset_iff (h : ∀ box ∈ first :: rest, box.IsProper) :
    (rest.foldl union first).region ⊆ outer.region ↔
      ∀ box ∈ first :: rest, box.region ⊆ outer.region := by
  induction rest generalizing first with
  | nil => rw [List.foldl_nil, List.forall_mem_singleton]
  | cons next rest ih =>
    obtain ⟨hfirst, hnext, hrest⟩ := by simpa only [List.forall_mem_cons] using h
    rw [List.foldl_cons, ih (List.forall_mem_cons.mpr ⟨hfirst.union hnext, hrest⟩)]
    simp only [List.forall_mem_cons, region_union_subset_iff hfirst hnext, and_assoc]

/-! ## Smallest boxes -/

/-- A box is the smallest around some points if it holds them and lies in every box that holds
them. -/
structure IsSmallestAround (b : Box Float) (contents : Set (Vec3 Float)) : Prop where
  holds : contents ⊆ b.region
  least : ∀ outer : Box Float, contents ⊆ outer.region → b.region ⊆ outer.region

/-- Two smallest boxes around the same points are equal, where zero of one sign equals zero of the
other. -/
theorem IsSmallestAround.beq (ha : a.IsSmallestAround contents)
    (hb : b.IsSmallestAround contents) (hne : contents.Nonempty) : a == b := by
  obtain ⟨p, hp⟩ := hne
  have hproper : a.IsProper ∧ b.IsProper :=
    ⟨isProper_of_mem_region (ha.holds hp), isProper_of_mem_region (hb.holds hp)⟩
  obtain ⟨hmin, hmax⟩ := (region_subset_iff hproper.1).mp (ha.least b hb.holds)
  obtain ⟨hmin', hmax'⟩ := (region_subset_iff hproper.2).mp (hb.least a ha.holds)
  show (a.min == b.min && a.max == b.max) = true
  rw [hmin'.beq hmin, hmax.beq hmax']
  rfl

/-- Boxes are joined to the smallest one around what lies in just the boxes that they all lie in. -/
theorem isSmallestAround_foldl_union (h : ∀ box ∈ first :: rest, box.IsProper)
    (hcontents : ∀ outer : Box Float,
      contents ⊆ outer.region ↔ ∀ box ∈ first :: rest, box.region ⊆ outer.region) :
    (rest.foldl union first).IsSmallestAround contents where
  holds := (hcontents _).mpr ((region_foldl_union_subset_iff h).mp subset_rfl)
  least outer houter := (region_foldl_union_subset_iff h).mpr ((hcontents outer).mp houter)

/-! ## Points as boxes -/

def point (p : Vec3 Float) : Box Float := ⟨p, p⟩

theorem isProper_point (hp : p.IsNumber) : (point p).IsProper := Vec3.atMost_self_iff.mpr hp

theorem region_point_subset_iff (hp : p.IsNumber) :
    (point p).region ⊆ outer.region ↔ p ∈ outer.region := by
  rw [region_subset_iff (isProper_point hp), mem_region_iff]
  rfl

/-- The box with its corners at the wrong ends. -/
def inverted : Box Float := ⟨.all (infinity false), .all (infinity true)⟩

theorem extend_inverted (p : Vec3 Float) : inverted.extend p = ofPoint p := by
  show Box.mk (Vec3.zipWith Coordinate.least (.all (infinity false)) p)
    (Vec3.zipWith Coordinate.greatest (.all (infinity true)) p) = _
  simp only [Vec3.zipWith, Vec3.all, least_infinity, greatest_infinity]
  rfl

/-- The box around points is the inverted box, widened by one point after another. -/
theorem ofPoints_eq_foldl_extend (hne : points ≠ []) :
    ofPoints points = points.foldl extend inverted := by
  obtain ⟨p, rest, rfl⟩ := List.exists_cons_of_ne_nil hne
  rw [List.foldl_cons, extend_inverted]
  rfl

theorem ofPoint_of_isNumber (hp : p.IsNumber) : ofPoint p = point p := by
  obtain ⟨hx, hy, hz, -⟩ := by
    simpa only [Vec3.IsNumber, Vec3.toList, List.forall_mem_cons] using hp
  simp only [ofPoint, Vec3.map, Coordinate.lowerBound, Coordinate.upperBound, hx, hy, hz,
    Bool.false_eq_true, if_false, point]

theorem ofPoints_cons (hp : p.IsNumber) (points : List (Vec3 Float)) :
    ofPoints (p :: points) = (points.map point).foldl union (point p) := by
  rw [ofPoints, ofPoint_of_isNumber hp, List.foldl_map]
  rfl

theorem isSmallestAround_ofPoints (hne : points ≠ []) (h : ∀ p ∈ points, p.IsNumber) :
    (ofPoints points).IsSmallestAround {p | p ∈ points} := by
  cases points with
  | nil => exact absurd rfl hne
  | cons p rest =>
    have hproper : ∀ box ∈ (p :: rest).map point, box.IsProper :=
      List.forall_mem_map.mpr fun q hq => isProper_point (h q hq)
    rw [ofPoints_cons (h p List.mem_cons_self)]
    refine isSmallestAround_foldl_union hproper fun outer => ?_
    rw [← List.map_cons, List.forall_mem_map]
    exact forall₂_congr fun q hq => (region_point_subset_iff (h q hq)).symm

/-- The box around points does not depend on their order or on how often one occurs. -/
theorem ofPoints_beq {others : List (Vec3 Float)} (hne : points ≠ [])
    (h : ∀ p ∈ points, p.IsNumber) (hothers : ∀ p, p ∈ others ↔ p ∈ points) :
    ofPoints others == ofPoints points := by
  obtain ⟨p, hp⟩ := List.exists_mem_of_ne_nil points hne
  have hother := isSmallestAround_ofPoints (List.ne_nil_of_mem ((hothers p).mpr hp))
    fun q hq => h q ((hothers q).mp hq)
  simp only [hothers] at hother
  exact hother.beq (isSmallestAround_ofPoints hne h) ⟨p, hp⟩

theorem ofPoints_append {front rest : List (Vec3 Float)} (hfront : front ≠ []) (hrest : rest ≠ [])
    (h : ∀ p ∈ front ++ rest, p.IsNumber) :
    ofPoints (front ++ rest) = (ofPoints front).union (ofPoints rest) := by
  obtain ⟨p, ps, rfl⟩ := List.exists_cons_of_ne_nil hfront
  obtain ⟨q, qs, rfl⟩ := List.exists_cons_of_ne_nil hrest
  have hp := h p (List.mem_append_left _ List.mem_cons_self)
  have hq := h q (List.mem_append_right _ List.mem_cons_self)
  rw [List.cons_append, ofPoints_cons hp, ofPoints_cons hp, ofPoints_cons hq, List.map_append,
    List.foldl_append, List.map_cons, List.foldl_cons, List.foldl_assoc]

end Box

end SolidScript.Space
