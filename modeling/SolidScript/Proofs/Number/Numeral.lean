import SolidScript.Number.Numeral
import SolidScript.Proofs.Number.Encoded

/-!
# Numerals for doubles

A numeral in the neighbourhood of a double is read as that double (`Numeral.toFloat_eq`). The places
at which a numeral is taken for zero or for infinity are out of reach of the neighbourhoods.
-/

namespace SolidScript.Number

/-! ## The value of digits -/

theorem digitsValue_eq (digits : List Char) : digitsValue digits = Nat.ofDigitChars 10 digits 0 :=
  rfl

@[simp] theorem digitsValue_toDigits (n : Nat) : digitsValue (Nat.toDigits 10 n) = n :=
  Nat.ofDigitChars_ten_toDigits

theorem digitsValue_append (front rest : List Char) :
    digitsValue (front ++ rest) = 10 ^ rest.length * digitsValue front + digitsValue rest := by
  rw [digitsValue_eq, Nat.ofDigitChars_append, Nat.ofDigitChars_eq_ofDigitChars_zero]
  rfl

@[simp] theorem digitsValue_replicate_zero (n : Nat) : digitsValue (List.replicate n '0') = 0 := by
  rw [digitsValue_eq, Nat.ofDigitChars_replicate_zero, Nat.mul_zero]

/-! ## Reading numerals -/

namespace Numeral

variable {n : Numeral} {x : Float} {negative : Bool} {m : Nat} {q : ℤ}

theorem toFloat_of_digits_eq_zero (h : decode x = .finite n.negative 0 q) (hn : n.digits = 0) :
    n.toFloat = x := by
  unfold toFloat
  dsimp only
  rw [if_pos (.inl hn), ← encode_of_decode h, exponent_of_decode_zero h]
  rfl

theorem pow_length_bounds {d : Nat} (hd : d ≠ 0) :
    10 ^ ((Nat.toDigits 10 d).length - 1) ≤ d ∧ d < 10 ^ (Nat.toDigits 10 d).length := by
  have hlength : 0 < (Nat.toDigits 10 d).length := Nat.length_toDigits_pos
  refine ⟨?_, (Nat.length_toDigits_le_iff (by decide) hlength).mp le_rfl⟩
  rcases Nat.eq_zero_or_pos ((Nat.toDigits 10 d).length - 1) with hone | hmore
  · rw [hone, pow_zero]
    exact Nat.pos_of_ne_zero hd
  · by_contra hless
    have := (Nat.length_toDigits_le_iff (by decide) hmore).mpr (not_le.mp hless)
    omega

/-- The place after the first digit of a numeral bounds its value. -/
theorem value_bounds (hn : n.digits ≠ 0) :
    (10 : ℚ) ^ (n.exponent + (Nat.toDigits 10 n.digits).length - 1) ≤
        n.digits * 10 ^ n.exponent ∧
      (n.digits * 10 ^ n.exponent : ℚ) <
        10 ^ (n.exponent + (Nat.toDigits 10 n.digits).length) := by
  obtain ⟨hlow, hhigh⟩ := pow_length_bounds hn
  obtain ⟨k, hk⟩ := Nat.exists_eq_succ_of_ne_zero (Nat.length_toDigits_pos (b := 10)
    (n := n.digits)).ne'
  rw [hk] at hlow hhigh ⊢
  have hpos : (0 : ℚ) < 10 ^ n.exponent := by positivity
  have hten : (10 : ℚ) ≠ 0 := by norm_num
  have hlow' : (10 : ℚ) ^ k ≤ n.digits := by exact_mod_cast hlow
  have hhigh' : (n.digits : ℚ) < 10 ^ (k + 1) := by exact_mod_cast hhigh
  constructor
  · rw [show n.exponent + ((k + 1 : ℕ) : ℤ) - 1 = k + n.exponent by push_cast; ring,
      zpow_add₀ hten, zpow_natCast]
    gcongr
  · rw [add_comm, zpow_add₀ hten, zpow_natCast]
    gcongr

theorem zpow_le_zpow_of_le {a b : ℕ} (h : 2 ^ a ≤ 10 ^ b) :
    (2 : ℚ) ^ (a : ℤ) ≤ 10 ^ (b : ℤ) ∧ (10 : ℚ) ^ (-b : ℤ) ≤ 2 ^ (-a : ℤ) := by
  have hpow : (2 : ℚ) ^ a ≤ 10 ^ b := by exact_mod_cast h
  rw [zpow_neg, zpow_neg, zpow_natCast, zpow_natCast]
  exact ⟨hpow, inv_anti₀ (by positivity) hpow⟩

/-- No positive double has its neighbourhood in reach of the places where numerals are taken for
zero or for infinity. -/
theorem place_of_contains (hcanonical : IsCanonical m q) (hn : n.digits ≠ 0)
    (hv : (neighbourhood m q).Contains (n.digits * 10 ^ n.exponent / 2 ^ (q - 2))) :
    -330 ≤ n.exponent + (Nat.toDigits 10 n.digits).length ∧
      n.exponent + (Nat.toDigits 10 n.digits).length ≤ 310 := by
  obtain ⟨hlow, hhigh, -, -⟩ := bounds_of_contains hcanonical.pos hv
  obtain ⟨hbelow, habove⟩ := value_bounds hn
  have hone : (1 : ℚ) ≤ m := by exact_mod_cast hcanonical.pos
  have hlt : (m : ℚ) + 1 ≤ 2 ^ 53 := by exact_mod_cast hcanonical.lt
  have hten : (1 : ℚ) < 10 := by norm_num
  have htwo : (1 : ℚ) ≤ 2 := one_le_two
  have ht : (0 : ℚ) < 2 ^ q := by positivity
  constructor
  · have hleast : (2 : ℚ) ^ (-(1075 : ℕ) : ℤ) ≤ n.digits * 10 ^ n.exponent := by
      have hstep : (2 : ℚ) ^ (-(1075 : ℕ) : ℤ) * 2 ≤ 2 ^ q := by
        rw [← zpow_add_one₀ two_ne_zero]
        exact zpow_le_zpow_right₀ htwo hcanonical.least
      have hhalf : (1 / 2 : ℚ) * 2 ^ q ≤ (m - 1 / 2 : ℚ) * 2 ^ q :=
        mul_le_mul_of_nonneg_right (by linarith) ht.le
      linarith
    have hpower := (zpow_le_zpow_of_le (show 2 ^ 1075 ≤ 10 ^ 331 by decide +kernel)).2
    have := (zpow_lt_zpow_iff_right₀ hten).mp (hpower.trans_lt (hleast.trans_lt habove))
    omega
  · have hgreatest : (n.digits * 10 ^ n.exponent : ℚ) < 2 ^ ((1024 : ℕ) : ℤ) := by
      calc (n.digits * 10 ^ n.exponent : ℚ)
        _ ≤ (m + 1 / 2) * 2 ^ q := hhigh
        _ < 2 ^ 53 * 2 ^ q := mul_lt_mul_of_pos_right (by linarith) ht
        _ = 2 ^ (q + (53 : ℕ)) := (zpow_add_natCast q 53).symm
        _ ≤ 2 ^ ((1024 : ℕ) : ℤ) := by
            refine zpow_le_zpow_right₀ htwo ?_
            have hle := hcanonical.greatest
            omega
    have hpower := (zpow_le_zpow_of_le (show 2 ^ 1024 ≤ 10 ^ 310 by decide +kernel)).1
    have := (zpow_lt_zpow_iff_right₀ hten).mp (hbelow.trans_lt (hgreatest.trans_le hpower))
    omega

/-- A numeral is read as the double in whose neighbourhood it lies. -/
theorem toFloat_eq (h : decode x = .finite n.negative m q) (hm : m ≠ 0)
    (hv : (neighbourhood m q).Contains (n.digits * 10 ^ n.exponent / 2 ^ (q - 2))) :
    n.toFloat = x := by
  have hcanonical := isCanonical_of_decode h hm
  have hn := ne_zero_of_contains hcanonical.pos hv
  obtain ⟨hleast, hgreatest⟩ := place_of_contains hcanonical hn hv
  obtain ⟨hup, hdown⟩ := powerOfTen_pos n.exponent
  have hnearest : Format.double.nearest (n.digits * (powerOfTen n.exponent).1)
      (powerOfTen n.exponent).2 = some (m, q) := by
    refine nearest_of_contains hcanonical hdown ?_
    rw [← powerOfTen_eq, ← mul_div_assoc] at hv
    exact_mod_cast hv
  unfold toFloat
  dsimp only
  rw [if_neg (by omega), if_neg (by omega)]
  unfold ofFraction
  rw [hnearest]
  exact encode_of_decode h

end Numeral

end SolidScript.Number
