import SolidScript.Proofs.Extent.Rules
import SolidScript.Proofs.Motion.Stack
import SolidScript.Proofs.Space.Bounds

/-!
# Shifts to the center

Over exact coordinates a shift takes the centroid of a part along, and an idle one leaves both where
they are (`Part.exists_extent_shiftBy`). Where the centroid lands on an axis depends on the shift
along this axis only (`Delta.landing`): at zero, or as far off as the shift says. So the same shift
to the center has nothing left to do, and gives the very part that was shifted
(`Part.apply_shift_landing`).
-/

namespace SolidScript

open Space

variable {R : Type} [Field R]

/-! ## One axis -/

namespace Delta

/-- Where a shift takes the centroid on its axis. -/
def landing (centroid : R) : Delta R → R
  | .by d => centroid + d
  | .center => 0

/-- To the center again, or by nothing more. -/
def again : Delta R → Delta R
  | .by _ => .by 0
  | .center => .center

variable {d : Delta R}

theorem add_amount (d : Delta R) (centroid : R) :
    centroid + d.amount centroid = d.landing centroid := by
  cases d with
  | «by» d => rfl
  | center => exact add_neg_cancel centroid

theorem amount_again (d : Delta R) (centroid : R) : d.again.amount (d.landing centroid) = 0 := by
  cases d with
  | «by» d => rfl
  | center => exact neg_zero

theorem amount_of_not_isCenter (h : d.isCenter = false) (centroid other : R) :
    d.amount centroid = d.amount other := by
  cases d with
  | «by» d => rfl
  | center => cases h

end Delta

/-! ## Offsets -/

namespace Space

theorem Vec3.add_eq (v w : Vec3 R) : v + w = ⟨v.x + w.x, v.y + w.y, v.z + w.z⟩ := rfl

variable [BEq R] [LawfulBEq R]

theorem Vec3.isZero_iff {v : Vec3 R} : v.isZero ↔ v = ⟨0, 0, 0⟩ := by
  obtain ⟨x, y, z⟩ := v
  simp [isZero, and_assoc]

theorem Homogeneous.onPoint_shifting (v p : Vec3 R) : (shifting v).onPoint p = p + v := by
  have haffine : (shifting v).IsAffine := rfl
  rw [haffine.onPoint_eq, Vec3.add_eq]
  simp [shifting, rowAt]

end Space

namespace Part

variable [BEq R] [Coordinate R] {part : Part R} {extent : Extent R}

theorem extent_moved (h : part.extent = .ok extent) {kind : Kind} {v : Vec3 R}
    {m : Homogeneous R} (hm : kind.matrix? v = some m) (serial : Nat) :
    Part.extent ⟨serial, .ofKind kind [.vector v] ∅ .motion, [part]⟩ =
      .ok ⟨extent.box.transform m, m.onPoint extent.centroid⟩ := by
  rw [extent_eq, List.map_singleton, h]
  unfold Kind.matrix? at hm
  split at hm <;> cases hm <;> rfl

theorem extent_translated [LawfulBEq R] (h : part.extent = .ok extent) (v : Vec3 R) (serial : Nat) :
    Part.extent ⟨serial, .ofKind .translate [.vector v] ∅ .motion, [part]⟩ =
      .ok ⟨extent.box.transform (.shifting v), extent.centroid + v⟩ := by
  rw [← Homogeneous.onPoint_shifting]
  exact extent_moved h rfl serial

theorem exists_extent_shiftBy [LawfulBEq R] (h : part.extent = .ok extent) (v : Vec3 R)
    (next : Nat) :
    ∃ after, (part.shiftBy v next).1.extent = .ok after ∧ after.centroid = extent.centroid + v := by
  unfold shiftBy
  split
  · rename_i hzero
    refine ⟨extent, h, ?_⟩
    rw [Vec3.isZero_iff.mp hzero, Vec3.add_eq]
    simp only [add_zero]
  · exact ⟨_, extent_translated h v next, rfl⟩

theorem exists_centroidFor_shift (h : part.extent = .ok extent) (x y z : Delta R) :
    ∃ centroid, part.centroidFor (Move.shift x y z) = .ok centroid ∧
      x.amount centroid.x = x.amount extent.centroid.x ∧
      y.amount centroid.y = y.amount extent.centroid.y ∧
      z.amount centroid.z = z.amount extent.centroid.z := by
  unfold centroidFor
  split
  · exact ⟨extent.centroid, by rw [h]; rfl, rfl, rfl, rfl⟩
  · rename_i hcenters
    simp only [Move.centers, Bool.or_eq_true, not_or, Bool.not_eq_true] at hcenters
    obtain ⟨⟨hx, hy⟩, hz⟩ := hcenters
    exact ⟨0, rfl, Delta.amount_of_not_isCenter hx _ _, Delta.amount_of_not_isCenter hy _ _,
      Delta.amount_of_not_isCenter hz _ _⟩

/-- A part with an extent is shifted by what the shifts along the axes amount to, each at its own
coordinate of the centroid. -/
theorem apply_shift (h : part.extent = .ok extent) {x y z : Delta R} {moved : Part R}
    {next last : Nat}
    (hshifted : part.shiftBy ⟨x.amount extent.centroid.x, y.amount extent.centroid.y,
      z.amount extent.centroid.z⟩ next = (moved, last)) :
    (part.apply (Move.shift x y z).alone).run next = (.ok moved, last) := by
  obtain ⟨centroid, hcentroid, hx, hy, hz⟩ := exists_centroidFor_shift h x y z
  have hcentroid : part.centroidFor (Move.shift x y z).alone.move = .ok centroid := hcentroid
  rw [← hx, ← hy, ← hz] at hshifted
  rw [run_apply, hcentroid]
  exact congrArg (Prod.map Except.ok id) hshifted

theorem apply_shift_idle [LawfulBEq R] (h : part.extent = .ok extent) {x y z : Delta R}
    (hx : x.amount extent.centroid.x = 0) (hy : y.amount extent.centroid.y = 0)
    (hz : z.amount extent.centroid.z = 0) (next : Nat) :
    (part.apply (Move.shift x y z).alone).run next = (.ok part, next) := by
  refine apply_shift h ?_
  rw [hx, hy, hz, shiftBy, if_pos (Vec3.isZero_iff.mpr rfl)]
  rfl

/-- A part with an extent can be shifted, to the center on any of the axes. It is shifted on each
axis on account of this axis alone, and so its centroid lands at zero where the shift is to the
center, and as far off as the shift says on the other axes. Shifted once more to the center on the
same axes and by nothing on the others it is the very same part, and nothing is built. -/
theorem apply_shift_landing [LinearOrder R] [Exact R] (h : part.extent = .ok extent)
    (x y z : Delta R) (next : Nat) :
    ∃ moved last after, (part.apply (Move.shift x y z).alone).run next = (.ok moved, last) ∧
      part.shiftBy ⟨x.amount extent.centroid.x, y.amount extent.centroid.y,
        z.amount extent.centroid.z⟩ next = (moved, last) ∧
      moved.extent = .ok after ∧
      after.centroid = ⟨x.landing extent.centroid.x, y.landing extent.centroid.y,
        z.landing extent.centroid.z⟩ ∧
      ∀ later, (moved.apply (Move.shift x.again y.again z.again).alone).run later =
        (.ok moved, later) := by
  obtain ⟨after, hafter, hcentroid⟩ := exists_extent_shiftBy h
    ⟨x.amount extent.centroid.x, y.amount extent.centroid.y, z.amount extent.centroid.z⟩ next
  rw [Vec3.add_eq] at hcentroid
  simp only [Delta.add_amount] at hcentroid
  rcases hshifted : part.shiftBy ⟨x.amount extent.centroid.x, y.amount extent.centroid.y,
    z.amount extent.centroid.z⟩ next with ⟨moved, last⟩
  rw [hshifted] at hafter
  refine ⟨moved, last, after, apply_shift h hshifted, rfl, hafter, hcentroid, ?_⟩
  refine apply_shift_idle hafter ?_ ?_ ?_
  all_goals
    rw [hcentroid]
    exact Delta.amount_again _ _

/-! ## A beam -/

def beam : Part ℚ := ⟨0, .ofKind .cube [.vector ⟨2, 4, 6⟩] ∅ .plain, []⟩

def turnedBeam : Part ℚ := ⟨1, .ofKind .rotate [.vector ⟨0, 0, 90⟩] ∅ .motion, [beam]⟩

/-- The turned beam is brought to the center on one axis and moved along another. -/
theorem turnedBeam_landing :
    ∃ extent moved last after, turnedBeam.extent = .ok extent ∧ extent.centroid = ⟨-2, 1, 3⟩ ∧
      (turnedBeam.apply (Move.shift .center (.by 3) (.by 0)).alone).run 2 = (.ok moved, last) ∧
      moved.extent = .ok after ∧ after.centroid = ⟨0, 4, 3⟩ ∧
      (moved.apply (Move.shift .center (.by 0) (.by 0)).alone).run last = (.ok moved, last) := by
  have hcentroid : turnedBeam.extent.map Extent.centroid = .ok ⟨-2, 1, 3⟩ := by decide +kernel
  obtain ⟨extent, hextent, hat⟩ := Fault.exists_of_map hcentroid
  obtain ⟨moved, last, after, happly, -, hafter, hlanding, hagain⟩ :=
    apply_shift_landing hextent .center (.by 3) (.by 0) 2
  refine ⟨extent, moved, last, after, hextent, hat.symm, happly, hafter, ?_, hagain last⟩
  rw [hlanding, ← hat]
  decide +kernel

end Part

end SolidScript
