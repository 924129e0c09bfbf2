import SolidScript.Proofs.Number.Decimal
import SolidScript.Proofs.Number.Numeral
import SolidScript.Proofs.Number.Shortest

/-!
# Doubles with a point

In settings a finite double is written with digits on either side of a point and no superfluous
zeros before them. The numeral with these digits is read as the same double again
(`exists_pointed`).
-/

namespace SolidScript.Number

/-- Digits before a point, without superfluous zeros, and digits after it. -/
structure IsPointed (whole fraction : List Char) : Prop where
  digits : IsDigits whole
  places : IsDigits fraction
  leading : whole = ['0'] ∨ whole.head? ≠ some '0'

theorem IsDigits.append_zeros {digits : List Char} (h : IsDigits digits) (n : Nat) :
    IsDigits (digits ++ List.replicate n '0') ∧ IsDigits (List.replicate n '0' ++ digits) := by
  have hzeros : ∀ c ∈ List.replicate n '0', c.isDigit := fun c hc => by
    rw [List.eq_of_mem_replicate hc]
    rfl
  exact ⟨⟨List.append_ne_nil_of_left_ne_nil h.1 _, fun c hc =>
      (List.mem_append.mp hc).elim (h.2 c) (hzeros c)⟩,
    ⟨List.append_ne_nil_of_right_ne_nil _ h.1, fun c hc =>
      (List.mem_append.mp hc).elim (hzeros c) (h.2 c)⟩⟩

theorem head?_toDigits {n : Nat} (hn : n ≠ 0) : (Nat.toDigits 10 n).head? ≠ some '0' := by
  induction n using Nat.strongRecOn with
  | ind n ih =>
    rw [Nat.toDigits_eq_if (by decide)]
    split
    · rename_i hlt
      have hdigit : ∀ d < 10, d ≠ 0 → [Nat.digitChar d].head? ≠ some '0' := by decide
      exact hdigit n hlt hn
    · have hne : n / 10 ≠ 0 := by omega
      rw [List.head?_append_of_ne_nil _ Nat.toDigits_ne_nil]
      exact ih (n / 10) (by omega) hne

/-! ## Signs -/

theorem sign_of_isDigits {ds : List Char} (hds : IsDigits ds) (rest : List Char) :
    Numeral.sign (ds ++ rest) = (false, ds ++ rest) := by
  obtain ⟨hne, hall⟩ := hds
  cases ds with
  | nil => exact absurd rfl hne
  | cons c ds =>
    have hc := hall c List.mem_cons_self
    unfold Numeral.sign
    split
    · rename_i heq
      cases heq
      exact absurd hc (by decide)
    · rename_i heq
      cases heq
      exact absurd hc (by decide)
    · rfl

theorem sign_signed (negative : Bool) {ds : List Char} (hds : IsDigits ds) (rest : List Char) :
    Numeral.sign ((if negative then ['-'] else []) ++ (ds ++ rest)) = (negative, ds ++ rest) := by
  cases negative with
  | true => rfl
  | false => exact sign_of_isDigits hds rest

/-! ## Where the point stands -/

/-- Digits around a point that stand for a number. -/
structure Points (whole fraction : List Char) (value : ℚ) : Prop where
  pointed : IsPointed whole fraction
  value_eq : (digitsValue (whole ++ fraction) * 10 ^ (-fraction.length : ℤ) : ℚ) = value

variable {digits : List Char}

theorem isDigits_zero : IsDigits ['0'] := isDigits_toDigits 0

/-- The point after all places, and after zeros if the last place is not that of the ones. -/
theorem points_after (h : IsDigits digits) (hhead : digits.head? ≠ some '0') (k : Nat) :
    Points (digits ++ List.replicate k '0') ['0'] (digitsValue digits * 10 ^ k) := by
  refine ⟨⟨(h.append_zeros k).1, isDigits_zero, .inr ?_⟩, ?_⟩
  · rwa [List.head?_append_of_ne_nil _ h.1]
  · rw [digitsValue_append, digitsValue_append, digitsValue_replicate_zero,
      show digitsValue ['0'] = 0 from rfl, List.length_replicate, List.length_singleton,
      Nat.cast_one, zpow_neg_one]
    push_cast
    ring

/-- The point between two places. -/
theorem points_between (h : IsDigits digits) (hhead : digits.head? ≠ some '0') {k : Nat}
    (hpos : 0 < k) (hlt : k < digits.length) :
    Points (digits.take (digits.length - k)) (digits.drop (digits.length - k))
      (digitsValue digits * 10 ^ (-k : ℤ)) := by
  have hlength : (digits.drop (digits.length - k)).length = k := by
    rw [List.length_drop]
    omega
  refine ⟨⟨⟨?_, ?_⟩, ⟨?_, ?_⟩, .inr ?_⟩, ?_⟩
  · exact List.ne_nil_of_length_pos (by rw [List.length_take]; omega)
  · exact fun c hc => h.2 c (List.mem_of_mem_take hc)
  · exact List.ne_nil_of_length_pos (by omega)
  · exact fun c hc => h.2 c (List.mem_of_mem_drop hc)
  · rwa [List.head?_take, if_neg (by omega)]
  · rw [List.take_append_drop, hlength]

/-- The point before all places, with zeros up to them. -/
theorem points_before (h : IsDigits digits) {k : Nat} (hle : digits.length ≤ k) :
    Points ['0'] (List.replicate (k - digits.length) '0' ++ digits)
      (digitsValue digits * 10 ^ (-k : ℤ)) := by
  refine ⟨⟨isDigits_zero, (h.append_zeros _).2, .inl rfl⟩, ?_⟩
  rw [digitsValue_append, digitsValue_append, digitsValue_replicate_zero,
    show digitsValue ['0'] = 0 from rfl, List.length_append, List.length_replicate,
    Nat.sub_add_cancel hle, Nat.mul_zero, Nat.mul_zero, Nat.zero_add, Nat.zero_add]

theorem exists_points {c : Nat} (hc : c ≠ 0) (e : ℤ) :
    ∃ whole fraction, Points whole fraction (c * 10 ^ e) ∧
      positionalText true (Nat.toDigits 10 c) e = whole ++ '.' :: fraction := by
  have hdigits := isDigits_toDigits c
  have hhead := head?_toDigits hc
  have hvalue := digitsValue_toDigits c
  generalize Nat.toDigits 10 c = digits at *
  subst hvalue
  unfold positionalText
  obtain ⟨k, rfl | rfl⟩ := e.eq_nat_or_neg
  · rw [if_pos (Int.natCast_nonneg k), if_pos rfl, zpow_natCast]
    exact ⟨_, _, points_after hdigits hhead k, rfl⟩
  rcases Nat.eq_zero_or_pos k with rfl | hpos
  · exact ⟨_, _, points_after hdigits hhead 0, rfl⟩
  rw [if_neg (by omega), neg_neg, Int.toNat_natCast]
  dsimp only
  split
  · rename_i hlt
    exact ⟨_, _, points_between hdigits hhead hpos hlt, rfl⟩
  · rename_i hge
    exact ⟨_, _, points_before hdigits (not_lt.mp hge), rfl⟩

/-- A finite double is written with a point, and the numeral that stands there is read as it. -/
theorem exists_pointed {x : Float} {negative : Bool} {m : Nat} {q : ℤ}
    (h : decode x = .finite negative m q) :
    ∃ whole fraction, IsPointed whole fraction ∧
      (Layout.settings.text x).toList =
        (if negative then ['-'] else []) ++ (whole ++ '.' :: fraction) ∧
      (Numeral.mk negative (digitsValue (whole ++ fraction)) (-fraction.length)).toFloat = x := by
  unfold Layout.text
  rw [h]
  dsimp only
  rw [String.toList_ofList]
  by_cases hm : m = 0
  · subst hm
    rw [if_pos rfl]
    exact ⟨['0'], ['0'], ⟨isDigits_zero, isDigits_zero, .inl rfl⟩, rfl,
      Numeral.toFloat_of_digits_eq_zero h rfl⟩
  · rw [if_neg hm]
    unfold Layout.digits
    cases hshortest : shortest m q with
    | mk c e =>
      have hcanonical := isCanonical_of_decode h hm
      have hcontains := contains_shortest hcanonical.pos hcanonical.least hshortest
      have hc := ne_zero_of_contains hcanonical.pos hcontains
      obtain ⟨whole, fraction, hpoints, htext⟩ := exists_points hc e
      refine ⟨whole, fraction, hpoints.pointed, congrArg _ htext, Numeral.toFloat_eq h hm ?_⟩
      rwa [hpoints.value_eq]

end SolidScript.Number
