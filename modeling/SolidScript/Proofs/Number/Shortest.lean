import SolidScript.Proofs.Number.Nearest

/-!
# What the shortest decimal stands for

The search for a short decimal gives a decimal in the neighbourhood of the double, so one that is
rounded to the double (`contains_shortest`). It does not end without one, since every double is a
multiple of the power of ten that the finest grid is made of.
-/

namespace SolidScript.Number

variable {m c : Nat} {q g : ℤ}

theorem Neighbourhood.holds_iff {r : Neighbourhood} {b c : Nat} (hb : 0 < b) :
    r.holds b c ↔ r.Contains (c / b) := by
  have hb' : (0 : ℚ) < b := by exact_mod_cast hb
  unfold holds Contains
  split
  · rw [Bool.and_eq_true, decide_eq_true_iff, decide_eq_true_iff, le_div_iff₀ hb', div_le_iff₀ hb']
    norm_cast
  · rw [Bool.and_eq_true, decide_eq_true_iff, decide_eq_true_iff, lt_div_iff₀ hb', div_lt_iff₀ hb']
    norm_cast

theorem quarters_pos (q g : ℤ) : 0 < (powerOfTwo (q - 2)).1 * (powerOfTen g).2 :=
  Nat.mul_pos (powerOfTwo_pos _).1 (powerOfTen_pos _).2

/-- A factor on a grid, in quarters. -/
theorem quarters_eq (c : Nat) (q g : ℤ) :
    ((c * ((powerOfTen g).1 * (powerOfTwo (q - 2)).2) : Nat) : ℚ) /
        ((powerOfTwo (q - 2)).1 * (powerOfTen g).2 : Nat) = c * 10 ^ g / 2 ^ (q - 2) := by
  obtain ⟨-, hten⟩ := powerOfTen_pos g
  obtain ⟨htwo, htwo'⟩ := powerOfTwo_pos (q - 2)
  rw [← powerOfTen_eq, ← powerOfTwo_eq]
  push_cast
  field_simp

theorem contains_of_multipleOn (h : multipleOn m q g = some c) :
    (neighbourhood m q).Contains (c * 10 ^ g / 2 ^ (q - 2)) := by
  rw [← quarters_eq, ← Neighbourhood.holds_iff (quarters_pos q g)]
  unfold multipleOn at h
  dsimp only at h
  split at h
  · rename_i hbelow habove
    split at h <;> cases h
    · exact hbelow
    · exact habove
  · rename_i hbelow _
    cases h
    exact hbelow
  · rename_i _ habove
    cases h
    exact habove
  · cases h

theorem contains_middle (hm : 0 < m) (q : ℤ) : (neighbourhood m q).Contains (4 * m) := by
  have hlow : ((neighbourhood m q).low : ℚ) < 4 * m := by
    have : (neighbourhood m q).low < 4 * m := by
      unfold neighbourhood
      dsimp only
      split <;> omega
    exact_mod_cast this
  have hhigh : (4 * m : ℚ) < (neighbourhood m q).high := by
    have : 4 * m < (neighbourhood m q).high := Nat.lt_add_of_pos_right two_pos
    exact_mod_cast this
  unfold Neighbourhood.Contains
  split
  · exact ⟨hlow.le, hhigh.le⟩
  · exact ⟨hlow, hhigh⟩

theorem multipleOn_isSome (hm : 0 < m)
    (hdvd : (powerOfTen g).1 * (powerOfTwo (q - 2)).2 ∣
      4 * m * ((powerOfTwo (q - 2)).1 * (powerOfTen g).2)) : (multipleOn m q g).isSome := by
  have hb := quarters_pos q g
  have hholds : (neighbourhood m q).holds ((powerOfTwo (q - 2)).1 * (powerOfTen g).2)
      (4 * m * ((powerOfTwo (q - 2)).1 * (powerOfTen g).2)) := by
    have hb' : (((powerOfTwo (q - 2)).1 * (powerOfTen g).2 : Nat) : ℚ) ≠ 0 := by
      exact_mod_cast hb.ne'
    rw [Neighbourhood.holds_iff hb, Nat.cast_mul, mul_div_cancel_right₀ _ hb']
    exact_mod_cast contains_middle hm q
  have hmiddle : (neighbourhood m q).middle = 4 * m := rfl
  unfold multipleOn
  dsimp only
  rw [hmiddle, Nat.div_mul_cancel hdvd, hholds]
  split
  case h_3 hfalse _ => cases hfalse
  case h_4 hfalse _ => cases hfalse
  all_goals rfl

/-- A double lies on every grid of a power of ten that is no greater than its last place. -/
theorem multipleOn_isSome_of_le (hm : 0 < m) (hg : g ≤ 0) (hq : g ≤ q) :
    (multipleOn m q g).isSome := by
  refine multipleOn_isSome hm ?_
  show 10 ^ g.toNat * 2 ^ (-(q - 2)).toNat ∣ 4 * m * (2 ^ (q - 2).toNat * 10 ^ (-g).toNat)
  have hzero : g.toNat = 0 := by omega
  have hle : (-(q - 2)).toNat ≤ 2 + (-g).toNat := by omega
  rw [hzero, pow_zero, one_mul]
  calc 2 ^ (-(q - 2)).toNat
    _ ∣ 2 ^ (2 + (-g).toNat) := pow_dvd_pow 2 hle
    _ = 4 * 2 ^ (-g).toNat := by rw [pow_add]; norm_num
    _ ∣ 4 * 10 ^ (-g).toNat := mul_dvd_mul_left 4 (pow_dvd_pow_of_dvd (by decide) _)
    _ ∣ 4 * m * (2 ^ (q - 2).toNat * 10 ^ (-g).toNat) :=
        mul_dvd_mul (dvd_mul_right 4 m) (dvd_mul_left _ _)

theorem contains_shortestFrom (hm : 0 < m) (hq : -1074 ≤ q) {n : Nat}
    (h : shortestFrom m q n = (c, g)) :
    (neighbourhood m q).Contains (c * 10 ^ g / 2 ^ (q - 2)) := by
  induction n with
  | zero =>
    obtain ⟨found, hfound⟩ := Option.isSome_iff_exists.mp
      (multipleOn_isSome_of_le hm (show finestGrid ≤ 0 by decide) hq)
    rw [shortestFrom, hfound] at h
    cases h
    exact contains_of_multipleOn hfound
  | succ n ih =>
    rw [shortestFrom] at h
    split at h
    · rename_i hfound
      cases h
      exact contains_of_multipleOn hfound
    · exact ih h

/-- The shortest decimal for a double lies in the neighbourhood of the double. -/
theorem contains_shortest (hm : 0 < m) (hq : -1074 ≤ q) (h : shortest m q = (c, g)) :
    (neighbourhood m q).Contains (c * 10 ^ g / 2 ^ (q - 2)) :=
  contains_shortestFrom hm hq h

end SolidScript.Number
