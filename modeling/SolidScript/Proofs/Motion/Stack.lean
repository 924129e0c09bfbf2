import SolidScript.Motion.Apply

/-!
# Stacks of motions

A move puts one to three motions around a part, or none if it is idle, and which ones does not
depend on the part: a relation that one motion carries over is carried over by every move
(`moveFrom_rel`), and a property of one part is the case where only one part is looked at
(`moveFrom_property`). The copy that a doubling motion makes is the part itself exactly if the move
is idle (`applyFrom_doubling`, `applyFrom_single`).
-/

namespace SolidScript

open SolidScript.Part Space

variable {R : Type} [Zero R] [Neg R] [BEq R]

def Kind.motions : List Kind := [translate, rotate, scale, mirror, linearExtrude, rotateExtrude]

/-- Whether a move leaves a part as it is: a shift by nothing or a turn by nothing. -/
def Move.isIdle (centroid : Vec3 R) : Move R → Bool
  | shift x y z =>
    (⟨x.amount centroid.x, y.amount centroid.y, z.amount centroid.z⟩ : Vec3 R).isZero
  | turn angles _ => angles.isZero
  | scale _ | mirror _ _ => false

theorem Build.run_bind {α β : Type} (b : Build α) (f : α → Build β) (next : Nat) :
    (b >>= f) next = f (b next).1 (b next).2 := rfl

namespace Part

/-- A relation that motions carry over. -/
def Stacks (rel : Part R → Part R → Prop) : Prop :=
  ∀ a b, rel a b → ∀ (serial serial' : Nat) (head : Head R), head.role = .motion →
    head.kind ∈ Kind.motions → rel ⟨serial, head, [a]⟩ ⟨serial', head, [b]⟩

section Related

variable {rel : Part R → Part R → Prop} (hrel : Stacks rel) {a b : Part R}

include hrel

omit [Zero R] [Neg R] [BEq R] in
theorem moved_rel (h : rel a b) {kind : Kind} (hkind : kind ∈ Kind.motions)
    (args : List (Value R)) (named : Named (Value R)) (next next' : Nat) :
    rel (a.moved kind args named next).1 (b.moved kind args named next').1 :=
  hrel a b h _ _ _ rfl hkind

omit [Neg R] in
theorem shiftBy_rel (h : rel a b) (v : Vec3 R) (next next' : Nat) :
    rel (a.shiftBy v next).1 (b.shiftBy v next').1 := by
  unfold shiftBy
  split
  · exact h
  · exact moved_rel hrel h (by decide) _ _ _ _

theorem aboutPivot_rel (h : rel a b) {kind : Kind} (hkind : kind ∈ Kind.motions)
    (v pivot : Vec3 R) (next next' : Nat) :
    rel (a.aboutPivot kind v pivot next).1 (b.aboutPivot kind v pivot next').1 := by
  have hshifted := shiftBy_rel hrel h (-pivot) next next'
  have hplaced := moved_rel hrel hshifted hkind [.vector v] ∅
  exact shiftBy_rel hrel (hplaced _ _) pivot _ _

/-- Every move carries over what one motion carries over. -/
theorem moveFrom_rel (h : rel a b) (centroid : Vec3 R) (move : Move R) (next next' : Nat) :
    rel (a.moveFrom centroid move next).1 (b.moveFrom centroid move next').1 := by
  cases move with
  | shift x y z => exact shiftBy_rel hrel h _ _ _
  | turn angles pivot =>
    show rel (a.turnAbout angles pivot next).1 (b.turnAbout angles pivot next').1
    unfold turnAbout
    split
    · exact h
    · exact aboutPivot_rel hrel h (by decide) _ _ _ _
  | scale factors => exact moved_rel hrel h (by decide) _ _ _ _
  | mirror normal pivot => exact aboutPivot_rel hrel h (by decide) _ _ _ _

end Related

theorem moveFrom_property {P : Part R → Prop}
    (hP : ∀ part, P part → ∀ (serial : Nat) (head : Head R), head.role = .motion →
      head.kind ∈ Kind.motions → P ⟨serial, head, [part]⟩)
    {part : Part R} (h : P part) (centroid : Vec3 R) (move : Move R) (next : Nat) :
    P (part.moveFrom centroid move next).1 := by
  -- The second part of the relation is not looked at, so any part will do.
  have hrel : Stacks fun a (_ : Part R) => P a :=
    fun a _ ha serial _ head hrole hkind => hP a ha serial head hrole hkind
  exact moveFrom_rel (b := part) hrel h centroid move next next

/-! ## Idle moves -/

omit [Neg R] in
theorem le_shiftBy (part : Part R) (v : Vec3 R) (next : Nat) : next ≤ (part.shiftBy v next).2 := by
  unfold shiftBy
  split
  · exact Nat.le_refl next
  · exact Nat.le_succ next

/-- A construction puts a new motion on top. -/
def IsMotionFrom (next : Nat) (part : Part R) : Prop :=
  part.head.role = .motion ∧ next ≤ part.serial

omit [Zero R] [Neg R] [BEq R] in
theorem isMotionFrom_moved (part : Part R) (kind : Kind) (args : List (Value R))
    (named : Named (Value R)) (next : Nat) :
    IsMotionFrom next (part.moved kind args named next).1 := ⟨rfl, Nat.le_refl next⟩

omit [Neg R] in
theorem isMotionFrom_shiftBy {part : Part R} {first : Nat} (h : IsMotionFrom first part)
    (v : Vec3 R) {next : Nat} (hle : first ≤ next) :
    IsMotionFrom first (part.shiftBy v next).1 := by
  unfold shiftBy
  split
  · exact h
  · exact ⟨rfl, hle⟩

theorem isMotionFrom_aboutPivot (part : Part R) (kind : Kind) (v pivot : Vec3 R) (next : Nat) :
    IsMotionFrom next (part.aboutPivot kind v pivot next).1 := by
  have hle := part.le_shiftBy (-pivot) next
  have hplaced := isMotionFrom_moved (part.shiftBy (-pivot) next).1 kind [.vector v] ∅
    (part.shiftBy (-pivot) next).2
  exact isMotionFrom_shiftBy ⟨hplaced.1, Nat.le_trans hle hplaced.2⟩ pivot (Nat.le_succ_of_le hle)

theorem moveFrom_of_isIdle (part : Part R) {centroid : Vec3 R} {move : Move R}
    (h : move.isIdle centroid) (next : Nat) : part.moveFrom centroid move next = (part, next) := by
  cases move with
  | shift x y z =>
    rw [Move.isIdle] at h
    rw [moveFrom, shiftBy, if_pos h]
    rfl
  | turn angles pivot =>
    rw [Move.isIdle] at h
    rw [moveFrom, turnAbout, if_pos h]
    rfl
  | scale factors => cases h
  | mirror normal pivot => cases h

theorem isMotionFrom_moveFrom (part : Part R) {centroid : Vec3 R} {move : Move R}
    (h : ¬move.isIdle centroid) (next : Nat) :
    IsMotionFrom next (part.moveFrom centroid move next).1 := by
  cases move with
  | shift x y z =>
    rw [Move.isIdle] at h
    rw [moveFrom, shiftBy, if_neg h]
    exact isMotionFrom_moved _ _ _ _ _
  | turn angles pivot =>
    rw [Move.isIdle] at h
    rw [moveFrom, turnAbout, if_neg h]
    exact isMotionFrom_aboutPivot _ _ _ _ _
  | scale factors => exact isMotionFrom_moved _ _ _ _ _
  | mirror normal pivot => exact isMotionFrom_aboutPivot _ _ _ _ _

theorem applyFrom_eq (part : Part R) (centroid : Vec3 R) (motion : Motion R) (next : Nat) :
    part.applyFrom centroid motion next =
      let moved := part.moveFrom centroid motion.move next
      if motion.doubles && moved.1.serial != part.serial then Build.copies part moved.1 moved.2
      else moved := by
  rw [applyFrom, Build.run_bind]
  dsimp only
  split <;> rfl

theorem applyFrom_doubling {part : Part R} {next : Nat} (hpart : part.serial < next)
    {centroid : Vec3 R} {motion : Motion R} (hdoubles : motion.doubles)
    (hmoves : ¬motion.move.isIdle centroid) :
    part.applyFrom centroid motion next =
      Build.copies part (part.moveFrom centroid motion.move next).1
        (part.moveFrom centroid motion.move next).2 := by
  obtain ⟨-, hle⟩ := part.isMotionFrom_moveFrom hmoves next
  rw [applyFrom_eq]
  refine if_pos ?_
  rw [hdoubles, Bool.true_and, bne_iff_ne]
  omega

theorem applyFrom_single (part : Part R) {centroid : Vec3 R} {motion : Motion R}
    (h : motion.doubles → motion.move.isIdle centroid) (next : Nat) :
    part.applyFrom centroid motion next = part.moveFrom centroid motion.move next := by
  rw [applyFrom_eq]
  refine if_neg fun hcopies => ?_
  obtain ⟨hdoubles, hne⟩ := (Bool.and_eq_true _ _).mp hcopies
  rw [part.moveFrom_of_isIdle (h hdoubles)] at hne
  exact bne_iff_ne.mp hne rfl

variable [One R] [Add R] [Mul R] [Div R] [Coordinate R]

/-- A motion fails where the centroid that it depends on is a fault, and then builds nothing. -/
theorem run_apply (part : Part R) (motion : Motion R) (next : Nat) :
    (part.apply motion).run next =
      match part.centroidFor motion.move with
      | .error fault => (.error fault, next)
      | .ok centroid => (part.applyFrom centroid motion next).map .ok id := by
  unfold apply
  cases part.centroidFor motion.move <;> rfl

end Part

end SolidScript
