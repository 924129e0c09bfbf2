import Mathlib
import SolidScript.Number.Fixed

/-!
# What doubles stand for

The reading of the bits of a double says what the model of doubles says (`decode_eq`). So a double
has a literal exactly if it is finite, and equal doubles have one literal.
-/

namespace SolidScript.Number

open Float.Model UnpackedFloat

/-! ## The fields of a double -/

theorem toNat_unpackMantissa (b : BitVec 64) :
    (@unpackMantissa Format.binary64 b).toNat = b.toNat % exponentWeight := by
  simp [unpackMantissa, exponentWeight]

theorem toNat_unpackExponent (b : BitVec 64) :
    (@unpackExponent Format.binary64 b).toNat = b.toNat / exponentWeight % 2048 := by
  simp [unpackExponent, exponentWeight, Nat.shiftRight_eq_div_pow]

theorem toNat_unpackSign (b : BitVec 64) :
    (@unpackSign Format.binary64 b).toNat = b.toNat / signWeight := by
  have hlt : b.toNat < 2 ^ 64 := b.isLt
  simp only [unpackSign, signWeight, BitVec.toNat_cast, BitVec.extractLsb_toNat,
    Nat.shiftRight_eq_div_pow]
  omega

/-- The implied bit of a normal significand. -/
theorem toNat_one_append (m : BitVec 52) : (1#1 ++ m).toNat = m.toNat + exponentWeight := by
  have hlt : m.toNat < 2 ^ 52 := m.isLt
  rw [BitVec.toNat_append, ← Nat.shiftLeft_add_eq_or_of_lt hlt, Nat.add_comm]
  rfl

def isNegative : Sign → Bool
  | .negative => true
  | .positive => false

theorem isNegative_ofBitVec (b : BitVec 1) : isNegative (Sign.ofBitVec b) = (b.toNat == 1) := by
  revert b
  decide

def Reading.ofUnpacked : UnpackedFloat → Reading
  | .infinity sign => .infinite (isNegative sign)
  | .notANumber => .undefined
  | .zero sign => .finite (isNegative sign) 0 (-1074)
  | .finite sign m e _ => .finite (isNegative sign) m e

/-- The bits of a double read the same as its model. -/
theorem decode_eq (x : Float) : decode x = .ofUnpacked x.toModel.unpack := by
  obtain ⟨b, hb⟩ : ∃ b : BitVec 64, b = x.toBits.toBitVec := ⟨_, rfl⟩
  have hbits : x.toBits.toNat = b.toNat := by rw [hb]; rfl
  have hunpack : x.toModel.unpack = UnpackedFloat.unpack Format.binary64 b := by rw [hb]; rfl
  have hsign : (b.toNat / signWeight == 1) =
      isNegative (Sign.ofBitVec (@unpackSign Format.binary64 b)) := by
    rw [isNegative_ofBitVec, toNat_unpackSign]
  rw [hunpack]
  unfold decode UnpackedFloat.unpack
  dsimp only
  rw [hbits, hsign, ← toNat_unpackMantissa, ← toNat_unpackExponent]
  have hlast : (@unpackExponent Format.binary64 b).toNat = 2047 ↔
      @unpackExponent Format.binary64 b = -1#11 := BitVec.toNat_inj (y := -1#11)
  have hfirst : (@unpackExponent Format.binary64 b).toNat = 0 ↔
      @unpackExponent Format.binary64 b = 0#11 := BitVec.toNat_inj (y := 0#11)
  have hzero : (@unpackMantissa Format.binary64 b).toNat = 0 ↔
      @unpackMantissa Format.binary64 b = 0#52 := BitVec.toNat_inj (y := 0#52)
  simp only [hlast, hfirst, hzero]
  -- The cases of the model are those of the reading, where zero is one of the subnormal numbers.
  split
  · split <;> rfl
  · split
    · split
      · rename_i hm
        rw [hm]
        rfl
      · rename_i he _
        rw [he]
        rfl
    · rw [Reading.ofUnpacked, toNat_one_append]
      rfl

/-! ## Finite numbers -/

theorem nonFinite?_eq_none_iff {x : Float} : nonFinite? x = none ↔ x.isFinite := by
  have hfinite : x.isFinite = x.toModel.unpack.isFinite := rfl
  unfold nonFinite?
  rw [decode_eq, hfinite]
  cases x.toModel.unpack <;> simp [Reading.ofUnpacked, UnpackedFloat.isFinite]

/-! ## Equality -/

theorem literal_neg_zero : literal (-0) = literal 0 := by
  decide +kernel

/-- Equal doubles are the same double or the two zeros. -/
theorem literal_eq_of_beq {x y : Float} (h : x == y) : literal x = literal y := by
  obtain ⟨-, -, rfl | ⟨rfl, rfl⟩ | ⟨rfl, rfl⟩⟩ := Float.beq_iff_ne_nan_and_eq.mp h
  · rfl
  · exact literal_neg_zero.symm
  · exact literal_neg_zero

theorem nonFinite?_eq_of_beq {x y : Float} (h : x == y) : nonFinite? x = nonFinite? y := by
  obtain ⟨-, -, rfl | ⟨rfl, rfl⟩ | ⟨rfl, rfl⟩⟩ := Float.beq_iff_ne_nan_and_eq.mp h
  · rfl
  · decide
  · decide

end SolidScript.Number
