import Mathlib.Algebra.Field.Rat
import Mathlib.Algebra.Order.Field.Basic
import Mathlib.Algebra.Order.Ring.Rat
import Mathlib.Data.Rat.Sqrt
import SolidScript.Space.Box

/-!
# Boxes over exact coordinates

Coordinates are exact when they form an ordered field and every question about them is answered by
its order; square roots and rotations are left open. Over exact coordinates a box is ordered when
its lower corner is at most its upper corner on every axis. The box around points is ordered, and so
is what a motion or a union makes of ordered boxes.
-/

namespace SolidScript.Space

/-- Coordinates without rounding, overflow or undefined numbers. -/
class Exact (R : Type) [Field R] [LinearOrder R] [BEq R] [Coordinate R] : Prop extends
    IsStrictOrderedRing R, LawfulBEq R where
  least_eq (a b : R) : Coordinate.least a b = min a b
  greatest_eq (a b : R) : Coordinate.greatest a b = max a b
  lowerBound_eq (a : R) : Coordinate.lowerBound a = a
  upperBound_eq (a : R) : Coordinate.upperBound a = a
  atMost_iff (a b : R) : Coordinate.atMost a b ↔ a ≤ b
  below_iff (a b : R) : Coordinate.below a b ↔ a < b
  magnitude_eq (a : R) : Coordinate.magnitude a = |a|
  ofInt_eq (n : Int) : (Coordinate.ofInt n : R) = n

attribute [simp] Exact.least_eq Exact.greatest_eq Exact.lowerBound_eq Exact.upperBound_eq
  Exact.atMost_iff Exact.below_iff Exact.magnitude_eq Exact.ofInt_eq

variable {R : Type} [Field R] [LinearOrder R] [BEq R] [Coordinate R]

namespace Box

structure Ordered (b : Box R) : Prop where
  x : b.min.x ≤ b.max.x
  y : b.min.y ≤ b.max.y
  z : b.min.z ≤ b.max.z

variable {a b : Box R}

omit [BEq R] [Coordinate R] in
theorem ordered_zero : (0 : Box R).Ordered := ⟨le_rfl, le_rfl, le_rfl⟩

variable [Exact R]

theorem ordered_ofPoint (p : Vec3 R) : (ofPoint p).Ordered := by
  constructor <;> simp [ofPoint, Vec3.map]

theorem Ordered.widen (h : a.Ordered) (low high : Vec3 R) :
    Ordered ⟨a.min.least low, a.max.greatest high⟩ := by
  have hwiden : ∀ {l h : R}, l ≤ h → ∀ l' h' : R,
      Coordinate.least l l' ≤ Coordinate.greatest h h' := by
    intro l h hle l' h'
    rw [Exact.least_eq, Exact.greatest_eq]
    exact (min_le_left l l').trans (hle.trans (le_max_left h h'))
  exact ⟨hwiden h.x _ _, hwiden h.y _ _, hwiden h.z _ _⟩

theorem Ordered.extend (h : a.Ordered) (p : Vec3 R) : (a.extend p).Ordered := h.widen p p

theorem Ordered.union (h : a.Ordered) (b : Box R) : (a.union b).Ordered := h.widen b.min b.max

theorem ordered_ofPoints (points : List (Vec3 R)) : (ofPoints points).Ordered := by
  cases points with
  | nil => exact ordered_zero
  | cons p rest =>
    have hfold : ∀ (more : List (Vec3 R)) (b : Box R), b.Ordered →
        (more.foldl Box.extend b).Ordered := by
      intro more
      induction more with
      | nil => exact fun b h => h
      | cons q more ih => exact fun b h => ih _ (h.extend q)
    exact hfold rest _ (ordered_ofPoint p)

theorem ordered_transform (b : Box R) (m : Homogeneous R) : (b.transform m).Ordered :=
  ordered_ofPoints _

theorem Ordered.shift (h : a.Ordered) (offset : Vec3 R) : (a.shift offset).Ordered :=
  ⟨add_le_add_left h.x _, add_le_add_left h.y _, add_le_add_left h.z _⟩

end Box

/-! ## Rational coordinates -/

/-- Rational coordinates, which know the quarter turn about the Z axis and no other rotation. -/
instance : Coordinate ℚ where
  least := min
  greatest := max
  lowerBound := id
  upperBound := id
  atMost a b := a ≤ b
  below a b := a < b
  magnitude := abs
  sqrt := Rat.sqrt
  ofInt n := n
  turn angles :=
    if angles = ⟨0, 0, 90⟩ then ⟨⟨0, -1, 0⟩, ⟨1, 0, 0⟩, ⟨0, 0, 1⟩⟩ else Linear.identity

instance : Exact ℚ where
  least_eq _ _ := rfl
  greatest_eq _ _ := rfl
  lowerBound_eq _ := rfl
  upperBound_eq _ := rfl
  atMost_iff _ _ := decide_eq_true_iff
  below_iff _ _ := decide_eq_true_iff
  magnitude_eq _ := rfl
  ofInt_eq _ := rfl

end SolidScript.Space
