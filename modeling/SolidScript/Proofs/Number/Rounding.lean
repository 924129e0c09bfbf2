import SolidScript.Number.Fixed
import SolidScript.Proofs.Number.Nearest

/-!
# The nearest integer

A rational number has one nearest integer, where of two that are equally near the even one counts
(`IsNearest.eq`). `roundDiv` gives the nearest integer of a quotient, and so `millionths` that of a
number in millionths.
-/

namespace SolidScript.Number

/-! ## Signs -/

def signed {α : Type*} [Neg α] (negative : Bool) (a : α) : α := if negative then -a else a

theorem cast_signed (negative : Bool) (k : ℤ) :
    ((signed negative k : ℤ) : ℚ) = signed negative (k : ℚ) := by
  cases negative with
  | true => exact Int.cast_neg k
  | false => rfl

theorem signed_mul (negative : Bool) (a b : ℚ) :
    signed negative a * b = signed negative (a * b) := by
  cases negative with
  | true => exact neg_mul a b
  | false => rfl

theorem signed_natCast_inj {negative negative' : Bool} {n n' : Nat} :
    signed negative (n : ℤ) = signed negative' (n' : ℤ) ↔
      n = n' ∧ (n = 0 ∨ negative = negative') := by
  cases negative <;> cases negative' <;> simp [signed] <;> omega

/-! ## Nearness -/

/-- No integer is nearer to `v` than `k`, and if another one is as near then `k` is even. -/
structure IsNearest (v : ℚ) (k : ℤ) : Prop where
  le : ∀ j : ℤ, |v - k| ≤ |v - j|
  even : ∀ j : ℤ, j ≠ k → |v - j| = |v - k| → Even k

section IsNearest

variable {v : ℚ} {k l : ℤ}

theorem one_le_abs_sub (h : k ≠ l) : (1 : ℚ) ≤ |(k : ℚ) - l| := by
  have hpos : 0 < |k - l| := abs_pos.mpr (sub_ne_zero.mpr h)
  exact_mod_cast hpos

theorem abs_sub_le_add (v : ℚ) (k l : ℤ) : |(k : ℚ) - l| ≤ |v - k| + |v - l| := by
  rw [abs_sub_comm v k]
  exact abs_sub_le _ _ _

theorem IsNearest.of_half (h : |v - k| ≤ 1 / 2) (heven : |v - k| = 1 / 2 → Even k) :
    IsNearest v k := by
  have hfar : ∀ j : ℤ, j ≠ k → 1 ≤ |v - j| + |v - k| := fun j hj =>
    (one_le_abs_sub hj).trans (abs_sub_le_add v j k)
  constructor
  · intro j
    by_cases hj : j = k
    · rw [hj]
    · have := hfar j hj
      linarith
  · intro j hj heq
    have := hfar j hj
    exact heven (by linarith)

theorem IsNearest.half (h : IsNearest v k) : |v - k| ≤ 1 / 2 := by
  have hup := sq_le_sq.mpr (h.le (k + 1))
  have hdown := sq_le_sq.mpr (h.le (k - 1))
  push_cast at hup hdown
  rw [abs_le]
  constructor <;> linarith

theorem IsNearest.eq (hk : IsNearest v k) (hl : IsNearest v l) : k = l := by
  by_contra hne
  -- Two of them are equally near, so both are even, but less than two apart.
  have hsame : |v - k| = |v - l| := le_antisymm (hk.le l) (hl.le k)
  have heven := (hk.even l (Ne.symm hne) hsame.symm).sub (hl.even k hne hsame)
  have hclose : |(k : ℚ) - l| ≤ 1 := by
    have hsum := abs_sub_le_add v k l
    have hk := hk.half
    have hl := hl.half
    linarith
  have hone : |k - l| ≤ 1 := by exact_mod_cast hclose
  obtain ⟨d, hd⟩ := heven
  rw [abs_le] at hone
  omega

theorem IsNearest.neg (h : IsNearest v k) : IsNearest (-v) (-k) := by
  have hneg : ∀ j : ℤ, |-v - j| = |v - (-j : ℤ)| := fun j => by
    rw [← abs_neg]
    push_cast
    ring_nf
  constructor
  · intro j
    rw [hneg, hneg, neg_neg]
    exact h.le (-j)
  · intro j hj heq
    rw [hneg, hneg, neg_neg] at heq
    exact (h.even (-j) (fun hjk => hj (neg_eq_iff_eq_neg.mp hjk)) heq).neg

theorem IsNearest.signed (h : IsNearest v k) (negative : Bool) :
    IsNearest (signed negative v) (signed negative k) := by
  cases negative with
  | true => exact h.neg
  | false => exact h

end IsNearest

/-! ## Quotients -/

theorem roundDiv_even (num : Nat) {den : Nat} (hden : 0 < den)
    (htie : 2 * num + den = 2 * (den * roundDiv num den) ∨
      2 * num = 2 * (den * roundDiv num den) + den) : Even (roundDiv num den) := by
  have hdiv := Nat.div_add_mod num den
  have hmod := Nat.mod_lt num hden
  rw [Nat.even_iff]
  unfold roundDiv at *
  dsimp only at *
  generalize num / den = k at *
  generalize num % den = r at *
  split at htie
  · omega
  · split at htie
    · rw [Nat.mul_add] at htie
      omega
    · rename_i hlow hhigh
      rw [if_neg hlow, if_neg hhigh]
      omega

theorem isNearest_roundDiv (num : Nat) {den : Nat} (hden : 0 < den) :
    IsNearest (num / den) (roundDiv num den) := by
  obtain ⟨hlow, hhigh⟩ := roundDiv_bounds num den hden
  have heven := roundDiv_even num hden
  generalize roundDiv num den = k at *
  have hpos : (0 : ℚ) < den := by exact_mod_cast hden
  have hdist : (num / den : ℚ) - (k : ℤ) = (num - den * k) / den := by
    rw [Int.cast_natCast]
    field_simp
  have hhalf : (1 / 2 : ℚ) * den = den / 2 := by ring
  have hlow' : (2 * (den * k) : ℚ) ≤ 2 * num + den := by exact_mod_cast hlow
  have hhigh' : (2 * num : ℚ) ≤ 2 * (den * k) + den := by exact_mod_cast hhigh
  refine .of_half ?_ fun htie => ?_
  · rw [hdist, abs_div, abs_of_pos hpos, div_le_iff₀ hpos, hhalf, abs_le]
    constructor <;> linarith
  · rw [hdist, abs_div, abs_of_pos hpos, div_eq_iff hpos.ne', hhalf, abs_eq (by positivity)] at htie
    refine (Int.even_coe_nat k).mpr (heven ?_)
    rcases htie with htie | htie
    · have : (2 * num : ℚ) = 2 * (den * k) + den := by linarith
      exact .inr (by exact_mod_cast this)
    · have : (2 * num + den : ℚ) = 2 * (den * k) := by linarith
      exact .inl (by exact_mod_cast this)

theorem isNearest_millionths (m : Nat) (q : ℤ) :
    IsNearest (m * 2 ^ q * 10 ^ 6) (millionths m q) := by
  obtain ⟨-, hdown⟩ := powerOfTwo_pos q
  have h := isNearest_roundDiv (m * million * (powerOfTwo q).1) hdown
  have hv : ((m * million * (powerOfTwo q).1 : Nat) : ℚ) / (powerOfTwo q).2 =
      m * 2 ^ q * 10 ^ 6 := by
    rw [← powerOfTwo_eq, million]
    push_cast
    ring
  rwa [hv] at h

end SolidScript.Number
