import SolidScript.Proofs.Extent.Centering

/-!
# Motions about a pivot

A motion about a pivot shifts the pivot to the origin, acts there by a linear map, and shifts back.
Over exact coordinates the centroid `c` of a part comes to `p + m (c - p)` for a pivot `p` and the
map `m`, whether shifts by nothing are left out or not (`Part.exists_extent_aboutPivot`).

The map of a reflection takes a point across the plane through the origin, and does so for every
normal whose length is exact (`Linear.apply_reflection`). So a reflection about a pivot takes the
centroid across the plane through the pivot, and a second one takes it back
(`Part.apply_about_pivot`).
-/

namespace SolidScript

open Space

variable {R : Type} [Field R]

namespace Space

/-! ## Points -/

namespace Vec3

theorem sub_eq (v w : Vec3 R) : v - w = ⟨v.x - w.x, v.y - w.y, v.z - w.z⟩ := by
  show Vec3.mk (v.x + -w.x) (v.y + -w.y) (v.z + -w.z) = _
  simp only [sub_eq_add_neg]

theorem times_eq (v : Vec3 R) (r : R) : v.times r = ⟨v.x * r, v.y * r, v.z * r⟩ := rfl

theorem sub_times_zero (v w : Vec3 R) : v - w.times 0 = v := by
  simp only [sub_eq, times_eq, mul_zero, sub_zero]

theorem sub_zero_times (v : Vec3 R) (r : R) : v - (0 : Vec3 R).times r = v := by
  show v - Vec3.mk (0 * r) (0 * r) (0 * r) = v
  simp only [sub_eq, zero_mul, sub_zero]

theorem add_sub_sub_cancel (p v w : Vec3 R) : p + (v - p - w) = v - w := by
  simp only [add_eq, sub_eq, mk.injEq]
  refine ⟨?_, ?_, ?_⟩ <;> ring

theorem dot_div (v w : Vec3 R) (r : R) : v.dot (w.div r) = v.dot w / r := by
  show v.x * (w.x / r) + v.y * (w.y / r) + v.z * (w.z / r) = (v.x * w.x + v.y * w.y + v.z * w.z) / r
  ring

theorem times_of_div (v : Vec3 R) (r s : R) : (v.div s).times r = v.times (r / s) := by
  show Vec3.mk (v.x / s * r) (v.y / s * r) (v.z / s * r) = _
  simp only [times_eq, div_mul_eq_mul_div, mul_div_assoc]

/-- The image of a point across the plane through a pivot with a normal. -/
def mirrored (v normal pivot : Vec3 R) : Vec3 R :=
  v - normal.times ((1 + 1) * ((v - pivot).dot normal / normal.dot normal))

theorem mirrored_zero (v pivot : Vec3 R) : v.mirrored 0 pivot = v := sub_zero_times _ _

theorem dot_mirrored_sub {normal : Vec3 R} (h : normal.dot normal ≠ 0) (v pivot : Vec3 R) :
    (v.mirrored normal pivot - pivot).dot normal = -(v - pivot).dot normal := by
  have hsub : (v.mirrored normal pivot - pivot).dot normal = (v - pivot).dot normal -
      (1 + 1) * ((v - pivot).dot normal / normal.dot normal) * normal.dot normal := by
    unfold mirrored
    generalize (1 + 1) * ((v - pivot).dot normal / normal.dot normal) = t
    simp only [sub_eq, times_eq, dot]
    ring
  rw [hsub, mul_assoc, div_mul_cancel₀ _ h]
  ring

theorem mirrored_mirrored (v normal pivot : Vec3 R) :
    (v.mirrored normal pivot).mirrored normal pivot = v := by
  by_cases h : normal.dot normal = 0
  · simp only [mirrored, h, div_zero, mul_zero, sub_times_zero]
  · rw [mirrored, dot_mirrored_sub h, mirrored]
    simp only [sub_eq, times_eq]
    obtain ⟨x, y, z⟩ := v
    simp only [mk.injEq]
    refine ⟨?_, ?_, ?_⟩ <;> ring

/-- The length of a vector is exact when its square is the product of the vector with itself. -/
def HasExactLength [Coordinate R] (v : Vec3 R) : Prop := v.length * v.length = v.dot v

end Vec3

/-! ## Linear maps -/

namespace Linear

/-- The linear map of a turn. A turn by nothing is the identity. -/
def turning [BEq R] [Coordinate R] (angles : Vec3 R) : Linear R :=
  if angles.isZero then identity else Coordinate.turn angles

theorem apply_identity (v : Vec3 R) : identity.apply v = v := by
  simp [identity, apply, Vec3.dot, Vec3.unitX, Vec3.unitY, Vec3.unitZ]

theorem onPoint_homogeneous [BEq R] [LawfulBEq R] (m : Linear R) (v : Vec3 R) :
    m.homogeneous.onPoint v = m.apply v := by
  have haffine : m.homogeneous.IsAffine := rfl
  rw [haffine.onPoint_eq]
  simp [homogeneous, rowOf, Homogeneous.rowAt, apply, Vec3.dot]

theorem apply_reflectionAcross (n v : Vec3 R) :
    (reflectionAcross n).apply v = v - n.times ((1 + 1) * v.dot n) := by
  rw [Vec3.sub_eq]
  show Vec3.mk (Vec3.dot ⟨1 + -(n.x * n.x * (1 + 1)), 0 + -(n.x * n.y * (1 + 1)),
      0 + -(n.x * n.z * (1 + 1))⟩ v)
    (Vec3.dot ⟨0 + -(n.y * n.x * (1 + 1)), 1 + -(n.y * n.y * (1 + 1)),
      0 + -(n.y * n.z * (1 + 1))⟩ v)
    (Vec3.dot ⟨0 + -(n.z * n.x * (1 + 1)), 0 + -(n.z * n.y * (1 + 1)),
      1 + -(n.z * n.z * (1 + 1))⟩ v) = _
  simp only [Vec3.dot, Vec3.times_eq, Vec3.mk.injEq]
  refine ⟨?_, ?_, ?_⟩ <;> ring

/-- A reflection takes points across the plane through the origin, however long its normal is, if
the length is exact. The zero normal reflects nothing, whatever its length is found to be. -/
theorem apply_reflection [BEq R] [LawfulBEq R] [Coordinate R] {normal : Vec3 R}
    (h : normal = 0 ∨ normal.HasExactLength) (v : Vec3 R) :
    (reflection normal).apply v =
      v - normal.times ((1 + 1) * (v.dot normal / normal.dot normal)) := by
  unfold reflection
  rcases h with rfl | hexact
  · rw [Vec3.sub_zero_times]
    split
    · rw [apply_identity]
    · rw [apply_reflectionAcross, Vec3.times_of_div, Vec3.sub_zero_times]
  · rw [← hexact]
    split
    · rename_i hlength
      rw [apply_identity, eq_of_beq hlength, mul_zero, div_zero, mul_zero, Vec3.sub_times_zero]
    · rw [apply_reflectionAcross, Vec3.dot_div, Vec3.times_of_div, mul_div_assoc, div_div]

end Linear

end Space

namespace Part

variable [BEq R] [Coordinate R] {part : Part R} {extent : Extent R}

theorem apply_alone (part : Part R) {move : Move R} (h : move.centers = false) (next : Nat) :
    (part.apply move.alone).run next = (part.moveFrom 0 move next).map .ok id := by
  have hcentroid : part.centroidFor move.alone.move = .ok 0 := if_neg (h ▸ Bool.false_ne_true)
  have halone : move.alone.doubles → move.alone.move.isIdle (0 : Vec3 R) := fun h =>
    absurd h Bool.false_ne_true
  rw [run_apply, hcentroid]
  exact congrArg (Prod.map Except.ok id) (applyFrom_single part halone next)

section Lawful

variable [LawfulBEq R]

/-- About a pivot, the centroid comes to where the map takes it with the pivot in place of the
origin. -/
theorem exists_extent_aboutPivot (h : part.extent = .ok extent) {kind : Kind} {v : Vec3 R}
    {m : Linear R} (hm : kind.matrix? v = some m.homogeneous) (pivot : Vec3 R) (next : Nat) :
    ∃ after, (part.aboutPivot kind v pivot next).1.extent = .ok after ∧
      after.centroid = pivot + m.apply (extent.centroid - pivot) := by
  obtain ⟨shifted, hshifted, hcentroid⟩ := exists_extent_shiftBy h (-pivot) next
  have hplaced := extent_moved hshifted hm (part.shiftBy (-pivot) next).2
  obtain ⟨after, hafter, hback⟩ :=
    exists_extent_shiftBy hplaced pivot ((part.shiftBy (-pivot) next).2 + 1)
  refine ⟨after, hafter, ?_⟩
  rw [hback, Linear.onPoint_homogeneous, hcentroid, Vec3.add_eq, Vec3.add_eq pivot]
  simp only [add_comm pivot.x, add_comm pivot.y, add_comm pivot.z]
  rfl

theorem exists_extent_turnAbout (h : part.extent = .ok extent) (angles pivot : Vec3 R)
    (next : Nat) :
    ∃ after, (part.turnAbout angles pivot next).1.extent = .ok after ∧
      after.centroid = pivot + (Linear.turning angles).apply (extent.centroid - pivot) := by
  unfold turnAbout Linear.turning
  split
  · refine ⟨extent, h, ?_⟩
    rw [Linear.apply_identity]
    simp only [Vec3.add_eq, Vec3.sub_eq, add_sub_cancel]
  · exact exists_extent_aboutPivot h rfl pivot next

theorem exists_extent_mirrorAbout (h : part.extent = .ok extent) {normal : Vec3 R}
    (hnormal : normal = 0 ∨ normal.HasExactLength) (pivot : Vec3 R) (next : Nat) :
    ∃ after, (part.mirrorAbout normal pivot next).1.extent = .ok after ∧
      after.centroid = extent.centroid.mirrored normal pivot := by
  have hmatrix : Kind.mirror.matrix? normal = some (Linear.reflection normal).homogeneous := rfl
  obtain ⟨after, hafter, hcentroid⟩ := exists_extent_aboutPivot h hmatrix pivot next
  refine ⟨after, hafter, ?_⟩
  rw [hcentroid, Linear.apply_reflection hnormal, Vec3.add_sub_sub_cancel, Vec3.mirrored]

end Lawful

/-- Over exact coordinates a part with an extent can be turned and reflected about every pivot. A
turn brings the centroid `c` to `p + m (c - p)` for the pivot `p` and the linear map `m` of the
turn. A reflection brings it across the plane through the pivot with the normal, for every normal of
exact length, and leaves it where it is if the normal is zero. Reflected once more in the same
plane, the part has its centroid where it was. -/
theorem apply_about_pivot [LinearOrder R] [Exact R] (h : part.extent = .ok extent)
    (pivot : Vec3 R) (next : Nat) :
    (∀ angles, ∃ turned last after,
      (part.apply (Move.turn angles pivot).alone).run next = (.ok turned, last) ∧
        part.turnAbout angles pivot next = (turned, last) ∧
        turned.extent = .ok after ∧
        after.centroid = pivot + (Linear.turning angles).apply (extent.centroid - pivot)) ∧
      ∀ normal : Vec3 R, normal = 0 ∨ normal.HasExactLength → ∃ mirrored last after,
        (part.apply (Move.mirror normal pivot).alone).run next = (.ok mirrored, last) ∧
          part.mirrorAbout normal pivot next = (mirrored, last) ∧
          mirrored.extent = .ok after ∧
          after.centroid = extent.centroid.mirrored normal pivot ∧
          (normal = 0 → after.centroid = extent.centroid) ∧
          ∀ later, ∃ back final again,
            (mirrored.apply (Move.mirror normal pivot).alone).run later = (.ok back, final) ∧
              mirrored.mirrorAbout normal pivot later = (back, final) ∧
              back.extent = .ok again ∧ again.centroid = extent.centroid := by
  refine ⟨fun angles => ?_, fun normal hnormal => ?_⟩
  · obtain ⟨after, hafter, hcentroid⟩ := exists_extent_turnAbout h angles pivot next
    exact ⟨_, _, after, apply_alone _ rfl _, rfl, hafter, hcentroid⟩
  · obtain ⟨after, hafter, hcentroid⟩ := exists_extent_mirrorAbout h hnormal pivot next
    refine ⟨_, _, after, apply_alone _ rfl _, rfl, hafter, hcentroid, ?_, fun later => ?_⟩
    · rintro rfl
      rw [hcentroid, Vec3.mirrored_zero]
    · obtain ⟨again, hagain, hback⟩ := exists_extent_mirrorAbout hafter hnormal pivot later
      rw [hcentroid, Vec3.mirrored_mirrored] at hback
      exact ⟨_, _, again, apply_alone _ rfl _, rfl, hagain, hback⟩

/-! ## A beam about a pivot -/

def slope : Vec3 ℚ := ⟨3, 4, 0⟩

theorem hasExactLength_slope : slope.HasExactLength := by
  have hdot : slope.dot slope = 5 * 5 := by decide +kernel
  have hlength : slope.length = 5 := by
    show Rat.sqrt (slope.dot slope) = 5
    rw [hdot, Rat.sqrt_eq]
    rfl
  rw [Vec3.HasExactLength, hdot, hlength]

/-- A beam is turned about a pivot on the X axis, or reflected there and back. -/
theorem turnedBeam_about_pivot :
    ∃ extent, turnedBeam.extent = .ok extent ∧ extent.centroid = ⟨-2, 1, 3⟩ ∧
      (∃ turned last after,
        (turnedBeam.apply (Move.turn ⟨0, 0, 90⟩ ⟨1, 0, 0⟩).alone).run 2 = (.ok turned, last) ∧
          turned.extent = .ok after ∧ after.centroid = ⟨0, -3, 3⟩) ∧
      ∃ mirrored last after back final again,
        (turnedBeam.apply (Move.mirror slope ⟨1, 0, 0⟩).alone).run 2 = (.ok mirrored, last) ∧
          mirrored.extent = .ok after ∧ after.centroid = ⟨-4 / 5, 13 / 5, 3⟩ ∧
          (mirrored.apply (Move.mirror slope ⟨1, 0, 0⟩).alone).run last = (.ok back, final) ∧
          back.extent = .ok again ∧ again.centroid = ⟨-2, 1, 3⟩ := by
  have hcentroid : turnedBeam.extent.map Extent.centroid = .ok ⟨-2, 1, 3⟩ := by decide +kernel
  obtain ⟨extent, hextent, hat⟩ := Fault.exists_of_map hcentroid
  obtain ⟨hturn, hmirror⟩ := apply_about_pivot hextent ⟨1, 0, 0⟩ 2
  obtain ⟨turned, last, after, hturned, -, hafter, hlanding⟩ := hturn ⟨0, 0, 90⟩
  obtain ⟨mirrored, last', after', hmirrored, -, hafter', hacross, -, hagain⟩ :=
    hmirror slope (.inr hasExactLength_slope)
  obtain ⟨back, final, again, hback, -, hextent', hreturn⟩ := hagain last'
  refine ⟨extent, hextent, hat.symm, ⟨turned, last, after, hturned, hafter, ?_⟩,
    mirrored, last', after', back, final, again, hmirrored, hafter', ?_, hback, hextent', ?_⟩
  · rw [hlanding, ← hat]
    decide +kernel
  · rw [hacross, ← hat]
    decide +kernel
  · rw [hreturn, hat]

end Part

end SolidScript
