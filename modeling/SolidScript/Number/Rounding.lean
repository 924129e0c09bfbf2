/-!
# Rounding a quotient

`roundDiv num den` is the natural number nearest to `num / den`; a quotient halfway between two
of them goes to the even one.
-/

namespace SolidScript.Number

/-- The natural number nearest to `num / den`, an exact half going to the even neighbour. -/
def roundDiv (num den : Nat) : Nat :=
  let quotient := num / den
  let rest := num % den
  if 2 * rest < den then quotient
  else if den < 2 * rest then quotient + 1
  else quotient + quotient % 2

/-- The rounding is within half a unit of the quotient, on either side. -/
theorem roundDiv_bounds (num den : Nat) (h : 0 < den) :
    2 * (den * roundDiv num den) ≤ 2 * num + den ∧
      2 * num ≤ 2 * (den * roundDiv num den) + den := by
  have hd := Nat.div_add_mod num den
  have hm := Nat.mod_lt num h
  have hq : num / den % 2 = 0 ∨ num / den % 2 = 1 := by omega
  unfold roundDiv
  simp only
  split
  · omega
  · split
    · simp only [Nat.mul_add]; omega
    · rcases hq with hq | hq <;> simp only [hq, Nat.mul_add] <;> omega

end SolidScript.Number
