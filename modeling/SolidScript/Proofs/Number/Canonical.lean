import SolidScript.Proofs.Number.Rounding
import SolidScript.Proofs.Number.Written

/-!
# Canonical literals

Doubles and numerals stand for rational numbers (`value`, `Numeral.value`). The literal of a finite
double is canonical, the numeral that stands there is the multiple of a millionth nearest to the
double, and doubles have one literal exactly if they have one nearest multiple
(`canonical_literal`). It is what is left of all six decimals when the zeros that end them are cut
off.
-/

namespace SolidScript.Number

variable {negative : Bool} {n : Nat} {text whole fraction : List Char}

/-! ## Exact values -/

/-- The number that a finite double stands for. -/
def value (x : Float) : ℚ :=
  match decode x with
  | .finite negative m q => signed negative (m * 2 ^ q)
  | .infinite _ | .undefined => 0

namespace Numeral

def value (n : Numeral) : ℚ := signed n.negative (n.digits * 10 ^ n.exponent)

def read? (text : List Char) : Option Numeral :=
  let (negative, body) := sign text
  unsigned? negative body

end Numeral

/-! ## Canonical literals -/

/-- An optional sign and digits without superfluous zeros before them, and a point with up to six
digits that do not end with a zero, or nothing. Zero has no sign. -/
inductive IsCanonicalLiteral : List Char → Prop where
  | whole (negative : Bool) {whole : List Char} : IsDigits whole →
    (whole = ['0'] ∨ whole.head? ≠ some '0') → (negative → whole ≠ ['0']) →
    IsCanonicalLiteral ((if negative then ['-'] else []) ++ whole)
  | point (negative : Bool) {whole fraction : List Char} : IsPointed whole fraction →
    fraction.length ≤ 6 → fraction.getLast? ≠ some '0' →
    IsCanonicalLiteral ((if negative then ['-'] else []) ++ (whole ++ '.' :: fraction))

theorem IsDigits.getLast?_ne (h : IsDigits whole) {c : Char} (hc : ¬c.isDigit) :
    whole.getLast? ≠ some c :=
  fun hlast => hc (h.2 c (List.mem_of_getLast? hlast))

namespace IsCanonicalLiteral

theorem ne_nil (h : IsCanonicalLiteral text) : text ≠ [] := by
  cases h with
  | whole negative hdigits => exact List.append_ne_nil_of_right_ne_nil _ hdigits.1
  | point negative =>
    exact List.append_ne_nil_of_right_ne_nil _ (List.append_ne_nil_of_right_ne_nil _ nofun)

theorem getLast?_ne_point (h : IsCanonicalLiteral text) : text.getLast? ≠ some '.' := by
  cases h with
  | whole negative hdigits =>
    rw [List.getLast?_append_of_ne_nil _ hdigits.1]
    exact hdigits.getLast?_ne (by decide)
  | point negative hpointed =>
    rw [← List.append_assoc, List.append_cons, List.getLast?_append_of_ne_nil _ hpointed.places.1]
    exact hpointed.places.getLast?_ne (by decide)

theorem ne_negative_zero (h : IsCanonicalLiteral text) : text ≠ ['-', '0'] := by
  intro heq
  cases h with
  | whole negative hdigits _ hzero =>
    cases negative with
    | true => exact hzero rfl (List.cons.inj heq).2
    | false =>
      have hminus := hdigits.2 '-' (heq.symm ▸ List.mem_cons_self :)
      exact absurd hminus (by decide)
  | point negative =>
    have hpoint : '.' ∈ ['-', '0'] :=
      heq ▸ List.mem_append_right _ (List.mem_append_right _ List.mem_cons_self)
    exact absurd hpoint (by decide)

end IsCanonicalLiteral

/-! ## Six digits -/

theorem length_sixDigits (h : n < million) : (sixDigits n).length = 6 := by
  have hle := (Nat.length_toDigits_le_iff (b := 10) (k := 6) (n := n) (by decide) (by decide)).mpr h
  rw [sixDigits, List.length_append, List.length_replicate]
  omega

theorem digitsValue_sixDigits (n : Nat) : digitsValue (sixDigits n) = n := by
  rw [sixDigits, digitsValue_append, digitsValue_replicate_zero, digitsValue_toDigits, Nat.mul_zero,
    Nat.zero_add]

theorem exists_dropLastZeros (digits : List Char) :
    ∃ k, digits = dropLastZeros digits ++ List.replicate k '0' := by
  refine ⟨(digits.rtakeWhile (· == '0')).length, ?_⟩
  have hzeros : digits.rtakeWhile (· == '0') =
      List.replicate (digits.rtakeWhile (· == '0')).length '0' :=
    List.eq_replicate_iff.mpr ⟨rfl, fun c hc => by simpa using List.mem_rtakeWhile_imp hc⟩
  rw [← hzeros]
  exact List.rdropWhile_append_rtakeWhile.symm

theorem getLast?_dropLastZeros (digits : List Char) :
    (dropLastZeros digits).getLast? ≠ some '0' := by
  intro hlast
  have hne : dropLastZeros digits ≠ [] := by
    rintro hnil
    rw [hnil] at hlast
    cases hlast
  rw [List.getLast?_eq_some_getLast hne, Option.some_inj] at hlast
  exact List.rdropWhile_last_not (· == '0') digits hne (beq_iff_eq.mpr hlast)

/-! ## The literal of a number of millionths -/

/-- The digits after the point of `n` millionths. -/
def places (n : Nat) : List Char := dropLastZeros (sixDigits (n % million))

/-- Digits with a point before them, or nothing. -/
def pointed (fraction : List Char) : List Char :=
  if fraction.isEmpty then [] else '.' :: fraction

theorem millionthsLiteral_eq (negative : Bool) (n : Nat) :
    millionthsLiteral negative n =
      (if negative && n ≠ 0 then ['-'] else []) ++
        (Nat.toDigits 10 (n / million) ++ pointed (places n)) :=
  List.append_assoc _ _ _

theorem isDigit_of_mem_places {c : Char} (hc : c ∈ places n) : c.isDigit :=
  isDigit_of_mem_dropLastZeros (fun _ => isDigit_of_mem_sixDigits) hc

theorem exists_places (n : Nat) :
    ∃ k, sixDigits (n % million) = places n ++ List.replicate k '0' ∧
      (places n).length + k = 6 := by
  obtain ⟨k, hk⟩ := exists_dropLastZeros (sixDigits (n % million))
  refine ⟨k, hk, ?_⟩
  have hlength := congrArg List.length hk
  rw [length_sixDigits (Nat.mod_lt n (by decide)), List.length_append, List.length_replicate]
    at hlength
  exact hlength.symm

theorem places_eq_nil_iff : places n = [] ↔ n % million = 0 := by
  constructor
  · intro hnil
    obtain ⟨k, hk, -⟩ := exists_places n
    rw [hnil, List.nil_append] at hk
    rw [← digitsValue_sixDigits (n % million), hk, digitsValue_replicate_zero]
  · intro hzero
    rw [places, hzero]
    rfl

/-- No places and no digit but a zero before them: this is zero. -/
theorem eq_zero_of_places (hnil : places n = []) (hzero : Nat.toDigits 10 (n / million) = ['0']) :
    n = 0 := by
  have hdiv : n / million = 0 := by
    rw [← digitsValue_toDigits (n / million), hzero]
    rfl
  rw [← Nat.div_add_mod n million, hdiv, places_eq_nil_iff.mp hnil]
  rfl

theorem value_places (n : Nat) :
    (digitsValue (Nat.toDigits 10 (n / million) ++ places n) * 10 ^ (-(places n).length : ℤ) : ℚ) =
      n / 10 ^ 6 := by
  obtain ⟨k, hk, hlength⟩ := exists_places n
  have hn : 10 ^ k * digitsValue (Nat.toDigits 10 (n / million) ++ places n) = n := by
    have hall : digitsValue (Nat.toDigits 10 (n / million) ++ sixDigits (n % million)) = n := by
      rw [digitsValue_append, length_sixDigits (Nat.mod_lt n (by decide)), digitsValue_toDigits,
        digitsValue_sixDigits]
      exact Nat.div_add_mod n million
    rwa [hk, ← List.append_assoc, digitsValue_append, digitsValue_replicate_zero, Nat.add_zero,
      List.length_replicate] at hall
  have hpow : (10 ^ 6 : ℚ) = 10 ^ (places n).length * 10 ^ k := by rw [← pow_add, hlength]
  have hn' : (n : ℚ) = 10 ^ k * digitsValue (Nat.toDigits 10 (n / million) ++ places n) := by
    exact_mod_cast hn.symm
  rw [hn', hpow, zpow_neg, zpow_natCast]
  field_simp

theorem unsigned?_digits (hwhole : IsDigits whole) (hfraction : ∀ c ∈ fraction, c.isDigit)
    (negative : Bool) :
    Numeral.unsigned? negative (whole ++ pointed fraction) =
      some ⟨negative, digitsValue (whole ++ fraction), -fraction.length⟩ := by
  have hne : whole.isEmpty = false := List.isEmpty_eq_false_iff.mpr hwhole.1
  have hpoint : ¬('.' : Char).isDigit := by decide
  unfold Numeral.unsigned? pointed
  cases fraction with
  | nil =>
    rw [List.isEmpty_nil, if_pos rfl, List.append_nil, List.takeWhile_eq_self_iff.mpr hwhole.2,
      List.dropWhile_eq_nil_iff.mpr hwhole.2]
    simp [hne]
  | cons c fraction =>
    rw [List.isEmpty_cons, if_neg Bool.false_ne_true, List.takeWhile_append_of_pos hwhole.2,
      List.takeWhile_cons_of_neg hpoint, List.append_nil, List.dropWhile_append_of_pos hwhole.2,
      List.dropWhile_cons_of_neg hpoint]
    simp [hne, List.takeWhile_eq_self_iff.mpr hfraction, List.dropWhile_eq_nil_iff.mpr hfraction]

theorem read?_millionthsLiteral (negative : Bool) (n : Nat) :
    (Numeral.read? (millionthsLiteral negative n)).map Numeral.value =
      some (signed negative (n : ℚ) / 10 ^ 6) := by
  have hwhole := isDigits_toDigits (n / million)
  rw [millionthsLiteral_eq, Numeral.read?, sign_signed _ hwhole]
  dsimp only
  rw [unsigned?_digits hwhole fun c => isDigit_of_mem_places, Option.map_some, Numeral.value,
    value_places]
  congr 1
  by_cases hn : n = 0
  · subst hn
    cases negative <;> simp [signed]
  · cases negative <;> simp [signed, hn, neg_div]

theorem millionthsLiteral_inj {negative' : Bool} {n' : Nat} :
    millionthsLiteral negative n = millionthsLiteral negative' n' ↔
      signed negative (n : ℤ) = signed negative' (n' : ℤ) := by
  constructor
  · intro heq
    have hread := congrArg (fun text => (Numeral.read? text).map Numeral.value) heq
    simp only [read?_millionthsLiteral, Option.some_inj] at hread
    have hvalue := (div_left_inj' (by norm_num)).mp hread
    rw [← Int.cast_natCast n, ← Int.cast_natCast n', ← cast_signed, ← cast_signed] at hvalue
    exact_mod_cast hvalue
  · intro heq
    obtain ⟨rfl, rfl | rfl⟩ := signed_natCast_inj.mp heq
    · cases negative <;> cases negative' <;> rfl
    · rfl

theorem isCanonicalLiteral_millionthsLiteral (negative : Bool) (n : Nat) :
    IsCanonicalLiteral (millionthsLiteral negative n) := by
  have hwhole := isDigits_toDigits (n / million)
  have hleading : Nat.toDigits 10 (n / million) = ['0'] ∨
      (Nat.toDigits 10 (n / million)).head? ≠ some '0' := by
    by_cases hzero : n / million = 0
    · exact .inl (by rw [hzero]; rfl)
    · exact .inr (head?_toDigits hzero)
  rw [millionthsLiteral_eq, pointed]
  by_cases hnil : places n = []
  · rw [hnil, List.isEmpty_nil, if_pos rfl, List.append_nil]
    refine .whole _ hwhole hleading fun hsign hzero => ?_
    have hn := eq_zero_of_places hnil hzero
    simp [hn] at hsign
  · rw [List.isEmpty_eq_false_iff.mpr hnil, if_neg Bool.false_ne_true]
    obtain ⟨k, -, hlength⟩ := exists_places n
    refine .point _ ⟨hwhole, ⟨hnil, fun c => isDigit_of_mem_places⟩, hleading⟩ ?_ ?_
    · omega
    · exact getLast?_dropLastZeros _

/-! ## Cutting zeros off -/

def allPlaces (negative : Bool) (n : Nat) : List Char :=
  (if negative then ['-'] else []) ++ Nat.toDigits 10 (n / million) ++
    '.' :: sixDigits (n % million)

/-- A text without the zeros that end it and the points before them, where zero loses its sign. -/
def trimmed (text : List Char) : List Char :=
  let rest := (text.rdropWhile (· == '0')).rdropWhile (· == '.')
  if rest = ['-', '0'] then ['0'] else rest

theorem rdropWhile_append {α : Type*} (p : α → Bool) (l r : List α) :
    (l ++ r).rdropWhile p =
      if r.rdropWhile p = [] then l.rdropWhile p else l ++ r.rdropWhile p := by
  simp only [List.rdropWhile, List.reverse_append, List.dropWhile_append, List.isEmpty_iff,
    List.reverse_eq_nil_iff]
  split <;> simp

theorem rdropWhile_digits {digits : List Char} (h : IsDigits digits) (front : List Char) :
    (front ++ digits).rdropWhile (· == '.') = front ++ digits := by
  have hself : digits.rdropWhile (· == '.') = digits := by
    refine List.rdropWhile_eq_self_iff.mpr fun hne hlast => ?_
    have hdigit := h.2 _ (List.getLast_mem hne)
    rw [beq_iff_eq.mp hlast] at hdigit
    exact absurd hdigit (by decide)
  rw [rdropWhile_append, hself, if_neg h.1]

/-- What is left of all six decimals is the literal. -/
theorem trimmed_allPlaces (negative : Bool) (n : Nat) :
    trimmed (allPlaces negative n) = millionthsLiteral negative n := by
  have hrest : ((allPlaces negative n).rdropWhile (· == '0')).rdropWhile (· == '.') =
      (if negative then ['-'] else []) ++
        (Nat.toDigits 10 (n / million) ++ pointed (places n)) := by
    have hplaces : (sixDigits (n % million)).rdropWhile (· == '0') = places n := rfl
    rw [allPlaces, pointed, List.append_cons, rdropWhile_append, hplaces]
    by_cases hnil : places n = []
    · rw [if_pos hnil, hnil, List.isEmpty_nil, if_pos rfl, List.append_nil,
        List.rdropWhile_concat_neg _ _ _ (by decide), List.rdropWhile_concat_pos _ _ _ (by decide),
        rdropWhile_digits (isDigits_toDigits _)]
    · rw [if_neg hnil, List.isEmpty_eq_false_iff.mpr hnil, if_neg Bool.false_ne_true,
        rdropWhile_digits ⟨hnil, fun c => isDigit_of_mem_places⟩]
      simp only [List.append_assoc, List.singleton_append]
  unfold trimmed
  dsimp only
  rw [hrest]
  -- Only a zero below its sign is no literal yet.
  by_cases hzero : negative ∧ n = 0
  · obtain ⟨rfl, rfl⟩ := hzero
    rfl
  · have hsign : (negative && n ≠ 0) = negative := by
      cases negative with
      | true => simpa using hzero
      | false => rfl
    have hliteral := millionthsLiteral_eq negative n
    rw [hsign] at hliteral
    rw [← hliteral, if_neg (isCanonicalLiteral_millionthsLiteral negative n).ne_negative_zero]

/-! ## Literals of finite doubles -/

def sixDecimals (x : Float) : List Char :=
  match decode x with
  | .finite negative m q => allPlaces negative (millionths m q)
  | .infinite _ | .undefined => []

/-- The literal of a finite double is that of its nearest number of millionths. -/
theorem exists_millionths {x : Float} (hx : x.isFinite) :
    ∃ (negative : Bool) (n : Nat), IsNearest (value x * 10 ^ 6) (signed negative (n : ℤ)) ∧
      (literal x).toList = millionthsLiteral negative n ∧
      sixDecimals x = allPlaces negative n := by
  rw [← nonFinite?_eq_none_iff] at hx
  unfold nonFinite? at hx
  unfold value literal sixDecimals
  cases hdecode : decode x with
  | finite negative m q =>
    have hnearest := (isNearest_millionths m q).signed negative
    refine ⟨negative, millionths m q, ?_, String.toList_ofList, rfl⟩
    rwa [← signed_mul] at hnearest
  | infinite negative =>
    rw [hdecode] at hx
    cases hx
  | undefined =>
    rw [hdecode] at hx
    cases hx

/-- The literal of a finite double is canonical and stands for the multiple of a millionth nearest
to the double, ties to even, and finite doubles have one literal exactly if they have one nearest
multiple. -/
theorem canonical_literal {x : Float} (hx : x.isFinite) :
    ∃ k : ℤ, IsNearest (value x * 10 ^ 6) k ∧
      IsCanonicalLiteral (literal x).toList ∧
      (literal x ≠ "-0" ∧ literal x ≠ "" ∧ (literal x).toList.getLast? ≠ some '.') ∧
      (Numeral.read? (literal x).toList).map Numeral.value = some (k / 10 ^ 6 : ℚ) ∧
      (literal x).toList = trimmed (sixDecimals x) ∧
      ∀ y : Float, y.isFinite → (literal x = literal y ↔ IsNearest (value y * 10 ^ 6) k) := by
  obtain ⟨negative, n, hnearest, hliteral, hdecimals⟩ := exists_millionths hx
  have hcanonical := isCanonicalLiteral_millionthsLiteral negative n
  have hread := read?_millionthsLiteral negative n
  rw [← hliteral] at hcanonical hread
  refine ⟨signed negative n, hnearest, hcanonical, ⟨?_, ?_, hcanonical.getLast?_ne_point⟩, ?_, ?_,
    fun y hy => ?_⟩
  · exact fun heq => hcanonical.ne_negative_zero (congrArg String.toList heq)
  · exact fun heq => hcanonical.ne_nil (congrArg String.toList heq)
  · rw [hread, cast_signed, Int.cast_natCast]
  · rw [hliteral, hdecimals, trimmed_allPlaces]
  · obtain ⟨negative', n', hnearest', hliteral', -⟩ := exists_millionths hy
    rw [← String.toList_inj, hliteral, hliteral', millionthsLiteral_inj]
    exact ⟨fun heq => heq ▸ hnearest', fun h => h.eq hnearest'⟩

/-- A tie: the even one of two equally near multiples is written. -/
theorem canonical_literal_tie : (-0.0234375 : Float).isFinite ∧
    value (-0.0234375) * 10 ^ 6 = -23437.5 ∧ literal (-0.0234375) = "-0.023438" ∧
    IsNearest (value (-0.0234375) * 10 ^ 6) (-23438) ∧
    (literal (-0.0234375) = literal (-0.023438) ↔
      IsNearest (value (-0.023438) * 10 ^ 6) (-23438)) := by
  have hx : (-0.0234375 : Float).isFinite := by decide +kernel
  have hdecode : decode (-0.0234375) = .finite true (3 * 2 ^ 51) (-58) := by decide +kernel
  have hvalue : value (-0.0234375) * 10 ^ 6 = -23437.5 := by
    rw [value, hdecode]
    norm_num [signed]
  have hliteral : literal (-0.0234375) = "-0.023438" := by decide +kernel
  obtain ⟨k, hnearest, -, -, hread, -, hsame⟩ := canonical_literal hx
  have hnumeral : Numeral.read? "-0.023438".toList = some ⟨true, 23438, -6⟩ := by decide +kernel
  obtain rfl : k = -23438 := by
    rw [hliteral, hnumeral, Option.map_some, Option.some_inj, Numeral.value] at hread
    have hk : (k : ℚ) = (-23438 : ℤ) := by
      norm_num [signed] at hread ⊢
      linarith
    exact_mod_cast hk
  exact ⟨hx, hvalue, hliteral, hnearest, hsame _ (by decide +kernel)⟩

end SolidScript.Number
