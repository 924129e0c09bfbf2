import Mathlib.Algebra.Order.Field.Power
import Mathlib.Algebra.Order.Ring.Rat
import Mathlib.Data.Nat.Cast.Order.Field
import Mathlib.Tactic.FieldSimp
import Mathlib.Tactic.GCongr
import Mathlib.Tactic.Linarith
import Mathlib.Tactic.NormNum
import Mathlib.Tactic.Positivity
import Mathlib.Tactic.Ring
import SolidScript.Number.Shortest

/-!
# Rounding to doubles

The arithmetic of doubles is said in rational numbers. A significand and an exponent are canonical
if they are those of a positive double. What lies in the neighbourhood of a double is rounded to it
(`Format.nearest_of_contains`): the order of the fraction gives the exponent, and rounding the
significand gives the significand.
-/

namespace SolidScript.Number

/-! ## Powers -/

theorem pow_toNat_div {b : Nat} (hb : b ≠ 0) (e : ℤ) :
    ((Nat.pow b e.toNat : Nat) : ℚ) / (Nat.pow b (-e).toNat : Nat) = (b : ℚ) ^ e := by
  have hb' : (b : ℚ) ≠ 0 := Nat.cast_ne_zero.mpr hb
  obtain ⟨n, rfl | rfl⟩ := e.eq_nat_or_neg
  · simp
  · simp

theorem powerOfTwo_eq (e : ℤ) : ((powerOfTwo e).1 : ℚ) / (powerOfTwo e).2 = 2 ^ e :=
  pow_toNat_div two_ne_zero e

theorem powerOfTen_eq (e : ℤ) : ((powerOfTen e).1 : ℚ) / (powerOfTen e).2 = 10 ^ e :=
  pow_toNat_div (by decide) e

theorem powerOfTwo_pos (e : ℤ) : 0 < (powerOfTwo e).1 ∧ 0 < (powerOfTwo e).2 :=
  ⟨Nat.pow_pos (by decide), Nat.pow_pos (by decide)⟩

theorem powerOfTen_pos (e : ℤ) : 0 < (powerOfTen e).1 ∧ 0 < (powerOfTen e).2 :=
  ⟨Nat.pow_pos (by decide), Nat.pow_pos (by decide)⟩

/-! ## Order and rounding -/

theorem powerOfTwo_le_iff {num den : Nat} (hden : 0 < den) (e : ℤ) :
    den * (powerOfTwo e).1 ≤ num * (powerOfTwo e).2 ↔ (2 : ℚ) ^ e ≤ num / den := by
  obtain ⟨-, hdown⟩ := powerOfTwo_pos e
  have hden' : (0 : ℚ) < den := by exact_mod_cast hden
  have hdown' : (0 : ℚ) < (powerOfTwo e).2 := by exact_mod_cast hdown
  rw [← powerOfTwo_eq, div_le_div_iff₀ hdown' hden', mul_comm den]
  exact_mod_cast Iff.rfl

theorem log2_bounds {n : Nat} (hn : 0 < n) :
    (2 : ℚ) ^ (n.log2 : ℤ) ≤ n ∧ (n : ℚ) < 2 ^ ((n.log2 : ℤ) + 1) :=
  ⟨by exact_mod_cast Nat.log2_self_le hn.ne', by exact_mod_cast Nat.lt_log2_self⟩

/-- The order of a fraction is the exponent of the power of two below it. -/
theorem binaryOrder_spec {num den : Nat} (hnum : 0 < num) (hden : 0 < den) :
    (2 : ℚ) ^ binaryOrder num den ≤ num / den ∧
      (num / den : ℚ) < 2 ^ (binaryOrder num den + 1) := by
  have hden' : (0 : ℚ) < den := by exact_mod_cast hden
  obtain ⟨hlownum, hhighnum⟩ := log2_bounds hnum
  obtain ⟨hlowden, hhighden⟩ := log2_bounds hden
  have hhigh : (num / den : ℚ) < 2 ^ ((num.log2 : ℤ) - den.log2 + 1) := by
    rw [div_lt_iff₀ hden']
    calc (num : ℚ) < 2 ^ ((num.log2 : ℤ) + 1) := hhighnum
      _ = 2 ^ ((num.log2 : ℤ) - den.log2 + 1) * 2 ^ (den.log2 : ℤ) := by
          rw [← zpow_add₀ two_ne_zero]
          congr 1
          ring
      _ ≤ 2 ^ ((num.log2 : ℤ) - den.log2 + 1) * den := by gcongr
  have hlow : (2 : ℚ) ^ ((num.log2 : ℤ) - den.log2 - 1) ≤ num / den := by
    rw [le_div_iff₀ hden']
    calc (2 : ℚ) ^ ((num.log2 : ℤ) - den.log2 - 1) * den
      _ ≤ 2 ^ ((num.log2 : ℤ) - den.log2 - 1) * 2 ^ ((den.log2 : ℤ) + 1) := by gcongr
      _ = 2 ^ (num.log2 : ℤ) := by
          rw [← zpow_add₀ two_ne_zero]
          congr 1
          ring
      _ ≤ num := hlownum
  unfold binaryOrder
  dsimp only
  split
  · rename_i h
    exact ⟨(powerOfTwo_le_iff hden _).mp h, hhigh⟩
  · rename_i h
    rw [powerOfTwo_le_iff hden, not_le] at h
    rw [sub_add_cancel]
    exact ⟨hlow, h⟩

theorem binaryOrder_eq {num den : Nat} {e : ℤ} (hnum : 0 < num) (hden : 0 < den)
    (hlow : (2 : ℚ) ^ e ≤ num / den) (hhigh : (num / den : ℚ) < 2 ^ (e + 1)) :
    binaryOrder num den = e := by
  obtain ⟨hle, hlt⟩ := binaryOrder_spec hnum hden
  have h₁ := (zpow_lt_zpow_iff_right₀ (one_lt_two (α := ℚ))).mp (hlow.trans_lt hlt)
  have h₂ := (zpow_lt_zpow_iff_right₀ (one_lt_two (α := ℚ))).mp (hle.trans_lt hhigh)
  omega

/-- A quotient is rounded to any number that it is within half a unit of, to an even one also from
just half a unit away. -/
theorem roundDiv_eq {num den n : Nat} (hden : 0 < den) (hlow : 2 * (den * n) ≤ 2 * num + den)
    (hhigh : 2 * num ≤ 2 * (den * n) + den)
    (htie : n % 2 = 1 → 2 * (den * n) ≠ 2 * num + den ∧ 2 * num ≠ 2 * (den * n) + den) :
    roundDiv num den = n := by
  have hdiv := Nat.div_add_mod num den
  have hmod := Nat.mod_lt num hden
  unfold roundDiv
  generalize num / den = k at *
  generalize num % den = r at *
  have hle : k ≤ n := by
    by_contra hgt
    have : den * (n + 1) ≤ den * k := Nat.mul_le_mul_left den (by omega)
    rw [Nat.mul_add, Nat.mul_one] at this
    omega
  have hge : n ≤ k + 1 := by
    by_contra hgt
    have : den * (k + 2) ≤ den * n := Nat.mul_le_mul_left den (by omega)
    rw [Nat.mul_add] at this
    omega
  obtain rfl | rfl : n = k ∨ n = k + 1 := by omega
  · dsimp only
    split
    · rfl
    · split
      · omega
      · omega
  · rw [Nat.mul_add, Nat.mul_one] at *
    dsimp only
    split
    · omega
    · split
      · rfl
      · omega

/-- What is within half a unit of a multiple of a power of two is rounded to it. -/
theorem roundDiv_powerOfTwo {num den n : Nat} {q : ℤ} (hden : 0 < den)
    (hlow : (n - 1 / 2 : ℚ) * 2 ^ q ≤ num / den) (hhigh : (num / den : ℚ) ≤ (n + 1 / 2) * 2 ^ q)
    (htie : n % 2 = 1 →
      (n - 1 / 2 : ℚ) * 2 ^ q ≠ num / den ∧ (num / den : ℚ) ≠ (n + 1 / 2) * 2 ^ q) :
    roundDiv (num * (powerOfTwo q).2) (den * (powerOfTwo q).1) = n := by
  obtain ⟨hup, hdown⟩ := powerOfTwo_pos q
  rw [← powerOfTwo_eq] at hlow hhigh htie
  generalize (powerOfTwo q).1 = up at *
  generalize (powerOfTwo q).2 = down at *
  have hden' : (den : ℚ) ≠ 0 := by exact_mod_cast hden.ne'
  have hdown' : (down : ℚ) ≠ 0 := by exact_mod_cast hdown.ne'
  have hscale : (0 : ℚ) < 2 * den * down := by positivity
  have hleft : (n - 1 / 2 : ℚ) * (up / down) * (2 * den * down) =
      ((2 * (den * up * n) : Nat) : ℚ) - (den * up : Nat) := by
    push_cast
    field_simp
  have hright : (n + 1 / 2 : ℚ) * (up / down) * (2 * den * down) =
      ((2 * (den * up * n) + den * up : Nat) : ℚ) := by
    push_cast
    field_simp
  have hmiddle : (num / den : ℚ) * (2 * den * down) = ((2 * (num * down) : Nat) : ℚ) := by
    push_cast
    field_simp
  have hlow' := mul_le_mul_of_nonneg_right hlow hscale.le
  have hhigh' := mul_le_mul_of_nonneg_right hhigh hscale.le
  rw [hleft, hmiddle, sub_le_iff_le_add] at hlow'
  rw [hmiddle, hright] at hhigh'
  refine roundDiv_eq (Nat.mul_pos hden hup) (by exact_mod_cast hlow') (by exact_mod_cast hhigh')
    fun hodd => ⟨fun heq => (htie hodd).1 ?_, fun heq => (htie hodd).2 ?_⟩
  · refine mul_right_cancel₀ hscale.ne' ?_
    rw [hleft, hmiddle, heq]
    push_cast
    ring
  · refine mul_right_cancel₀ hscale.ne' ?_
    rw [hmiddle, hright, heq]

/-! ## Neighbourhoods -/

/-- Whether a number of quarters lies in the neighbourhood. -/
def Neighbourhood.Contains (r : Neighbourhood) (u : ℚ) : Prop :=
  if r.closed then r.low ≤ u ∧ u ≤ r.high else r.low < u ∧ u < r.high

/-- The significand and the exponent of a positive double. -/
structure IsCanonical (m : Nat) (q : ℤ) : Prop where
  pos : 0 < m
  lt : m < 2 * exponentWeight
  least : -1074 ≤ q
  greatest : q ≤ 971
  normal : exponentWeight ≤ m ∨ q = -1074

theorem zpow_sub_two_mul_four (q : ℤ) : (2 : ℚ) ^ (q - 2) * 4 = 2 ^ q := by
  rw [show (4 : ℚ) = 2 ^ (2 : ℤ) by norm_num, ← zpow_add₀ two_ne_zero, sub_add_cancel]

theorem neighbourhood_high (m : Nat) (q : ℤ) : ((neighbourhood m q).high : ℚ) = 4 * m + 2 := by
  rw [neighbourhood]
  push_cast
  ring

theorem neighbourhood_low {m : Nat} (hm : 0 < m) (q : ℤ) :
    (4 * m - 2 : ℚ) ≤ (neighbourhood m q).low ∧
      (m = exponentWeight → -1074 < q → ((neighbourhood m q).low : ℚ) = 4 * m - 1) := by
  rw [neighbourhood]
  dsimp only
  split
  · rw [Nat.cast_sub (by omega)]
    push_cast
    exact ⟨by linarith, fun _ _ => rfl⟩
  · rename_i hnot
    rw [Nat.cast_sub (by omega)]
    push_cast
    exact ⟨le_rfl, fun hm hq => absurd ⟨hm, hq⟩ hnot⟩

/-- The neighbourhood of a double reaches at most half a unit of its last place to either side, and
below a power of two only half as far. -/
theorem bounds_of_contains {m : Nat} {q : ℤ} {v : ℚ} (hm : 0 < m)
    (h : (neighbourhood m q).Contains (v / 2 ^ (q - 2))) :
    (m - 1 / 2 : ℚ) * 2 ^ q ≤ v ∧ v ≤ (m + 1 / 2 : ℚ) * 2 ^ q ∧
      (m % 2 = 1 → (m - 1 / 2 : ℚ) * 2 ^ q ≠ v ∧ v ≠ (m + 1 / 2 : ℚ) * 2 ^ q) ∧
      (m = exponentWeight → -1074 < q → (m - 1 / 4 : ℚ) * 2 ^ q ≤ v) := by
  have hpos : (0 : ℚ) < 2 ^ (q - 2) := by positivity
  have hone : (1 : ℚ) ≤ m := by exact_mod_cast hm
  obtain ⟨t, ht⟩ : ∃ t, t = (2 : ℚ) ^ (q - 2) := ⟨_, rfl⟩
  rw [← zpow_sub_two_mul_four q]
  rw [← ht] at hpos h ⊢
  have hclosed : (neighbourhood m q).closed = decide (m % 2 = 0) := rfl
  rw [Neighbourhood.Contains, hclosed, neighbourhood_high] at h
  obtain ⟨hlow, hnarrow⟩ := neighbourhood_low hm q
  have hlow' := mul_le_mul_of_nonneg_right hlow hpos.le
  by_cases heven : m % 2 = 0
  · rw [if_pos (decide_eq_true heven), le_div_iff₀ hpos, div_le_iff₀ hpos] at h
    obtain ⟨hfrom, hto⟩ := h
    refine ⟨by linarith, by linarith, fun hodd => by omega, fun hm hq => ?_⟩
    rw [hnarrow hm hq] at hfrom
    linarith
  · rw [if_neg (by simpa using heven), lt_div_iff₀ hpos, div_lt_iff₀ hpos] at h
    obtain ⟨hfrom, hto⟩ := h
    have hless : (m - 1 / 2 : ℚ) * (t * 4) < v := by linarith
    have hmore : v < (m + 1 / 2 : ℚ) * (t * 4) := by linarith
    refine ⟨hless.le, hmore.le, fun _ => ⟨hless.ne, hmore.ne⟩, fun hm hq => ?_⟩
    rw [hnarrow hm hq] at hfrom
    linarith

theorem pos_of_contains {m : Nat} {q : ℤ} {v : ℚ} (hm : 0 < m)
    (h : (neighbourhood m q).Contains (v / 2 ^ (q - 2))) : 0 < v := by
  have hone : (1 : ℚ) ≤ m := by exact_mod_cast hm
  have ht : (0 : ℚ) < 2 ^ q := by positivity
  exact (mul_pos (by linarith) ht).trans_le (bounds_of_contains hm h).1

theorem ne_zero_of_contains {m c : Nat} {q e : ℤ} (hm : 0 < m)
    (h : (neighbourhood m q).Contains (c * 10 ^ e / 2 ^ (q - 2))) : c ≠ 0 := by
  rintro rfl
  have hpos := pos_of_contains hm h
  rw [Nat.cast_zero, zero_mul] at hpos
  exact absurd hpos (lt_irrefl 0)

theorem nearest_double {num den n : Nat} {q : ℤ} (hnum : num ≠ 0)
    (hq : max (-1074) (binaryOrder num den + 1 - 53) = q)
    (hround : roundDiv (num * (powerOfTwo q).2) (den * (powerOfTwo q).1) = n) :
    Format.double.nearest num den =
      if n = 2 * exponentWeight then (if q + 1 ≤ 971 then some (exponentWeight, q + 1) else none)
      else if q ≤ 971 then some (n, q) else none := by
  cases hpower : powerOfTwo q with
  | mk up down =>
    rw [hpower] at hround
    have hq' : max (-1074) (binaryOrder num den + 1 - (53 : Nat)) = q := hq
    simp only [Format.nearest, Format.double, if_neg hnum, hq', hpower, hround]
    by_cases hcarry : n = 2 * exponentWeight
    · rw [if_pos hcarry, if_pos (show n = Nat.pow 2 53 from hcarry)]
      rfl
    · rw [if_neg hcarry, if_neg (show ¬n = Nat.pow 2 53 from hcarry)]

theorem zpow_add_natCast (q : ℤ) (k : ℕ) : (2 : ℚ) ^ (q + k) = 2 ^ k * 2 ^ q := by
  rw [zpow_add₀ two_ne_zero, zpow_natCast, mul_comm]

/-- Just below a power of two, a fraction is rounded up to it on the finer scale there. -/
theorem nearest_power {num den : Nat} {q : ℤ} (hnum : 0 < num) (hden : 0 < den) (hleast : -1074 < q)
    (hgreatest : q ≤ 971) (hnear : (2 ^ 52 - 1 / 4 : ℚ) * 2 ^ q ≤ num / den)
    (hbelow : (num / den : ℚ) < 2 ^ 52 * 2 ^ q) :
    Format.double.nearest num den = some (exponentWeight, q) := by
  have ht : (0 : ℚ) < 2 ^ q := by positivity
  have horder : binaryOrder num den = q + (51 : ℕ) := by
    refine binaryOrder_eq hnum hden ?_ ?_
    · rw [zpow_add_natCast]
      linarith
    · rw [← zpow_add_natCast] at hbelow
      rwa [add_assoc]
  have hhalf : (2 : ℚ) ^ q = 2 ^ (q - 1) * 2 := by
    rw [← zpow_add_one₀ two_ne_zero, sub_add_cancel]
  have hdouble : ((2 * exponentWeight : Nat) : ℚ) = 2 ^ 53 := by norm_num [exponentWeight]
  have hround : roundDiv (num * (powerOfTwo (q - 1)).2) (den * (powerOfTwo (q - 1)).1) =
      2 * exponentWeight := by
    have hfine : (0 : ℚ) < 2 ^ (q - 1) := by positivity
    rw [hhalf] at hnear hbelow
    refine roundDiv_powerOfTwo hden ?_ ?_ fun hodd => absurd hodd (by decide)
    · rw [hdouble]
      linarith
    · rw [hdouble]
      linarith
  have hexponent : max (-1074) (binaryOrder num den + 1 - 53) = q - 1 := by
    rw [horder]
    omega
  rw [nearest_double hnum.ne' hexponent hround, if_pos rfl, if_pos (by omega), sub_add_cancel]

/-- What lies in the neighbourhood of a double is rounded to it. -/
theorem nearest_of_contains {m : Nat} {q : ℤ} {num den : Nat} (h : IsCanonical m q)
    (hden : 0 < den) (hv : (neighbourhood m q).Contains (num / den / 2 ^ (q - 2))) :
    Format.double.nearest num den = some (m, q) := by
  obtain ⟨hlow, hhigh, htie, hnarrow⟩ := bounds_of_contains h.pos hv
  have ht : (0 : ℚ) < 2 ^ q := by positivity
  have hlt : (m : ℚ) + 1 ≤ 2 ^ 53 := by exact_mod_cast h.lt
  have hnum : 0 < num := by
    refine Nat.pos_of_ne_zero fun hzero => ?_
    have hpos := pos_of_contains h.pos hv
    rw [hzero, Nat.cast_zero, zero_div] at hpos
    exact absurd hpos (lt_irrefl 0)
  have hbelow : (num / den : ℚ) < 2 ^ (q + (53 : ℕ)) := by
    rw [zpow_add_natCast]
    refine hhigh.trans_lt ?_
    gcongr
    linarith
  -- Where the exponent of the fraction is that of the double, so is the significand.
  have hsame (hq : max (-1074) (binaryOrder num den + 1 - 53) = q) :
      Format.double.nearest num den = some (m, q) := by
    rw [nearest_double hnum.ne' hq (roundDiv_powerOfTwo hden hlow hhigh htie),
      if_neg h.lt.ne, if_pos h.greatest]
  rcases le_or_gt (2 ^ (q + (52 : ℕ))) (num / den : ℚ) with habove | hunder
  · have horder : binaryOrder num den = q + (52 : ℕ) := by
      refine binaryOrder_eq hnum hden habove ?_
      rwa [add_assoc]
    have hleast := h.least
    refine hsame ?_
    rw [horder]
    omega
  rcases h.least.eq_or_lt with hleast | hleast
  · have horder : binaryOrder num den < q + (52 : ℕ) :=
      (zpow_lt_zpow_iff_right₀ (one_lt_two (α := ℚ))).mp
        ((binaryOrder_spec hnum hden).1.trans_lt hunder)
    refine hsame ?_
    omega
  · have hweight : (exponentWeight : ℚ) = 2 ^ 52 := by norm_num [exponentWeight]
    rw [zpow_add_natCast] at hunder
    have hm : m = exponentWeight := by
      refine le_antisymm ?_ (h.normal.resolve_right hleast.ne')
      have hmlt : (m - 1 / 2 : ℚ) < 2 ^ 52 := lt_of_mul_lt_mul_right (hlow.trans_lt hunder) ht.le
      have hmlt' : (m : ℚ) < exponentWeight + 1 := by
        rw [hweight]
        linarith
      exact Nat.lt_succ_iff.mp (by exact_mod_cast hmlt')
    have hnear := hnarrow hm hleast
    rw [hm, hweight] at hnear
    rw [hm]
    exact nearest_power hnum hden hleast h.greatest hnear hunder

end SolidScript.Number
