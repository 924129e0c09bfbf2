import SolidScript.Proofs.Number.Decoded
import SolidScript.Proofs.Number.Nearest

/-!
# Putting doubles together again

What a double was taken apart into makes up the same double again, bit by bit, whether it is finite
(`encode_of_decode`) or infinite (`infinity_of_decode`).
-/

namespace SolidScript.Number

variable {x : Float} {negative : Bool} {m : Nat} {q : ℤ}

theorem eq_fields {bits : Nat} (h : bits < 2 ^ 64) :
    bits = (if bits / signWeight == 1 then signWeight else 0) +
      (bits / exponentWeight % 2048 * exponentWeight + bits % exponentWeight) := by
  unfold signWeight exponentWeight
  by_cases hsign : bits / 0x8000000000000000 = 1
  · rw [if_pos (beq_iff_eq.mpr hsign)]
    omega
  · rw [if_neg (by simpa using hsign)]
    omega

theorem ofBits_toNat (x : Float) : Float.ofBits (UInt64.ofNat x.toBits.toNat) = x := by
  rw [UInt64.ofNat_toNat, Float.ofBits_toBits]

/-- A finite double by the fields of its bits: a subnormal number or a normal one. -/
theorem fields_of_decode (h : decode x = .finite negative m q) :
    ∃ biased fraction, biased < 2047 ∧ fraction < exponentWeight ∧
      x.toBits.toNat = (if negative then signWeight else 0) + (biased * exponentWeight + fraction) ∧
      (biased = 0 ∧ m = fraction ∧ q = -1074 ∨
        0 < biased ∧ m = fraction + exponentWeight ∧ q = biased - 1075) := by
  have hfields := eq_fields x.toBits.toNat_lt
  have hbiased : x.toBits.toNat / exponentWeight % 2048 < 2048 := Nat.mod_lt _ (by decide)
  have hfraction : x.toBits.toNat % exponentWeight < exponentWeight := Nat.mod_lt _ (by decide)
  unfold decode at h
  dsimp only at h
  split at h
  · split at h <;> cases h
  · rename_i hne
    split at h
    · rename_i hzero
      cases h
      exact ⟨_, _, by omega, hfraction, hfields, .inl ⟨hzero, rfl, rfl⟩⟩
    · rename_i hzero
      cases h
      exact ⟨_, _, by omega, hfraction, hfields, .inr ⟨Nat.pos_of_ne_zero hzero, rfl, rfl⟩⟩

theorem isCanonical_of_decode (h : decode x = .finite negative m q) (hm : m ≠ 0) :
    IsCanonical m q := by
  obtain ⟨biased, fraction, hbiased, hfraction, -, ⟨rfl, rfl, rfl⟩ | ⟨hpos, rfl, rfl⟩⟩ :=
    fields_of_decode h
  · exact ⟨Nat.pos_of_ne_zero hm, by omega, by decide, by decide, .inr rfl⟩
  · exact ⟨by omega, by omega, by omega, by omega, .inl (Nat.le_add_left _ _)⟩

theorem exponent_of_decode_zero (h : decode x = .finite negative 0 q) : q = -1074 := by
  obtain ⟨biased, fraction, -, -, -, ⟨-, -, hq⟩ | ⟨-, hm, -⟩⟩ := fields_of_decode h
  · exact hq
  · exact absurd hm.symm (Nat.add_pos_right fraction (by decide)).ne'

theorem encode_of_decode (h : decode x = .finite negative m q) : encode negative m q = x := by
  obtain ⟨biased, fraction, -, hfraction, hbits, hcase⟩ := fields_of_decode h
  rw [← ofBits_toNat x, hbits]
  unfold encode
  dsimp only
  congr 3
  rcases hcase with ⟨rfl, rfl, -⟩ | ⟨hpos, rfl, rfl⟩
  · rw [if_pos hfraction, Nat.zero_mul, Nat.zero_add]
  · rw [if_neg (by omega), Nat.add_sub_cancel, sub_add_cancel, Int.toNat_natCast]

theorem infinity_of_decode (h : decode x = .infinite negative) : infinity negative = x := by
  have hfields := eq_fields x.toBits.toNat_lt
  unfold decode at h
  dsimp only at h
  split at h
  · rename_i hlast
    split at h
    · rename_i hzero
      cases h
      rw [hlast, hzero] at hfields
      rw [← ofBits_toNat x, hfields]
      cases x.toBits.toNat / signWeight == 1 <;> rfl
    · cases h
  · split at h <;> cases h

theorem decode_ne_undefined (h : x.isNaN = false) : decode x ≠ .undefined := by
  have hmodel : x.isNaN = x.toModel.unpack.isNaN := rfl
  rw [hmodel] at h
  rw [decode_eq]
  revert h
  cases x.toModel.unpack <;> simp [Reading.ofUnpacked, Float.Model.UnpackedFloat.isNaN]

theorem decode_infinity (negative : Bool) : decode (infinity negative) = .infinite negative := by
  cases negative <;> decide +kernel

theorem not_beq_infinity_of_decode (h : decode x = .finite negative m q) :
    ¬(x == infinity false) := by
  intro hbeq
  have hinfinite := decode_infinity false
  obtain ⟨-, -, rfl | ⟨rfl, hzero⟩ | ⟨rfl, hzero⟩⟩ := Float.beq_iff_ne_nan_and_eq.mp hbeq
  · rw [h] at hinfinite
    cases hinfinite
  · exact absurd hzero (by decide)
  · exact absurd hzero (by decide)

end SolidScript.Number
