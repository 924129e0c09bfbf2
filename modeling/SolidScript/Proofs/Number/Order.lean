import SolidScript.Proofs.Number.Encoded
import SolidScript.Space.Coordinate

/-!
# The order of doubles

Every double but the undefined one has a place in a linear order, which tells how it compares with
others (`lt_iff_place`, `le_iff_place`, `beq_iff_place`); the two zeros have one place, and the
infinities are at either end (`infinite_or_between`). So the lesser of two doubles is the first one
of least place, where the undefined one comes last, and the greater of two is the first one of
greatest place, where the undefined one comes first. Both operations are associative, and they
bound the two if neither is undefined (`le_least_iff`, `greatest_le_iff`).
-/

namespace SolidScript.Number

open Float.Model

/-! ## Places -/

/-- A sign, an exponent and a significand, in this order of importance. -/
abbrev Place := ℤ ×ₗ ℤ ×ₗ ℤ

def placeOfUnpacked : UnpackedFloat → Option Place
  | .notANumber => none
  | .infinity .negative => some (toLex (-2, toLex (0, 0)))
  | .finite .negative m e _ => some (toLex (-1, toLex (-e, -m)))
  | .zero _ => some (toLex (0, toLex (0, 0)))
  | .finite .positive m e _ => some (toLex (1, toLex (e, m)))
  | .infinity .positive => some (toLex (2, toLex (0, 0)))

theorem compare_neg_neg (a b : ℤ) : compare (-a) (-b) = compare b a := by
  simp only [compare, compareOfLessAndEq]
  grind

theorem compare_natCast (a b : ℕ) : compare (a : ℤ) b = compare a b := by
  simp only [compare, compareOfLessAndEq]
  grind

theorem compare_eq_placeOfUnpacked (a b : UnpackedFloat) :
    a.compare b = Option.map₂ compare (placeOfUnpacked a) (placeOfUnpacked b) := by
  rcases a with sa | _ | sa | ⟨sa, ma, ea, _⟩ <;> rcases b with sb | _ | sb | ⟨sb, mb, eb, _⟩ <;>
    try cases sa <;> try cases sb
  -- Signs decide unless they are equal, and then the exponents before the significands.
  case finite.finite.negative.negative =>
    show some ((compare ea eb).then (compare ma mb)).swap =
      some ((compare (-ea) (-eb)).then (compare (-ma : ℤ) (-mb)))
    rw [compare_neg_neg, compare_neg_neg, compare_natCast, Ordering.swap_then,
      ← Std.OrientedCmp.eq_swap, ← Std.OrientedCmp.eq_swap]
  case finite.finite.positive.positive =>
    show some ((compare ea eb).then (compare ma mb)) =
      some ((compare ea eb).then (compare (ma : ℤ) mb))
    rw [compare_natCast]
  all_goals rfl

theorem lt_iff_placeOfUnpacked {a b : UnpackedFloat} :
    a.lt b ↔ ∃ p ∈ placeOfUnpacked a, ∃ q ∈ placeOfUnpacked b, p < q := by
  rw [UnpackedFloat.lt, compare_eq_placeOfUnpacked]
  cases placeOfUnpacked a <;> cases placeOfUnpacked b <;> simp [← compare_lt_iff_lt]

theorem le_iff_placeOfUnpacked {a b : UnpackedFloat} :
    a.le b ↔ ∃ p ∈ placeOfUnpacked a, ∃ q ∈ placeOfUnpacked b, p ≤ q := by
  rw [UnpackedFloat.le, compare_eq_placeOfUnpacked]
  cases placeOfUnpacked a <;> cases placeOfUnpacked b <;>
    simp [Ordering.isLE_iff_ne_gt, ← compare_le_iff_le]

theorem beq_iff_placeOfUnpacked {a b : UnpackedFloat} :
    a.beq b ↔ ∃ p ∈ placeOfUnpacked a, p ∈ placeOfUnpacked b := by
  rw [UnpackedFloat.beq, compare_eq_placeOfUnpacked, beq_iff_eq]
  cases placeOfUnpacked a with
  | none => simp
  | some p =>
    cases placeOfUnpacked b with
    | none => simp
    | some q =>
      simp only [Option.map₂_some_some, Option.some.injEq, Option.mem_some_iff, exists_eq_left']
      exact compare_eq_iff_eq.trans eq_comm

def place (x : Float) : Option Place := placeOfUnpacked x.toModel.unpack

theorem lt_iff_place {x y : Float} : x < y ↔ ∃ p ∈ place x, ∃ q ∈ place y, p < q := by
  show decide (x.toModel < y.toModel) ↔ _
  rw [decide_eq_true_iff]
  exact lt_iff_placeOfUnpacked

theorem le_iff_place {x y : Float} : x ≤ y ↔ ∃ p ∈ place x, ∃ q ∈ place y, p ≤ q := by
  show decide (x.toModel ≤ y.toModel) ↔ _
  rw [decide_eq_true_iff]
  exact le_iff_placeOfUnpacked

theorem beq_iff_place {x y : Float} : x == y ↔ ∃ p ∈ place x, p ∈ place y :=
  beq_iff_placeOfUnpacked

theorem isNaN_iff_place {x : Float} : x.isNaN ↔ place x = none := by
  have hmodel : x.isNaN = x.toModel.unpack.isNaN := rfl
  rw [hmodel, place]
  rcases x.toModel.unpack with s | _ | s | ⟨s, m, e, _⟩ <;> try cases s
  all_goals simp [UnpackedFloat.isNaN, placeOfUnpacked]

theorem eq_of_place_eq_none {x y : Float} (hx : place x = none) (hy : place y = none) : x = y := by
  rw [← isNaN_iff_place, Float.isNaN_eq_decide_eq_nan, decide_eq_true_iff] at hx hy
  rw [hx, hy]

theorem not_lt_of_isNaN {x y : Float} (h : x.isNaN) : ¬x < y ∧ ¬y < x := by
  rw [lt_iff_place, lt_iff_place, isNaN_iff_place.mp h]
  exact ⟨nofun, nofun⟩

/-- The infinities are the ends of the order. -/
theorem infinite_or_between {x : Float} (h : x.isNaN = false) :
    (∃ negative, infinity negative = x) ∨ infinity true < x ∧ x < infinity false := by
  have hlow : place (infinity true) = some (toLex (-2, toLex (0, 0))) := rfl
  have hhigh : place (infinity false) = some (toLex (2, toLex (0, 0))) := rfl
  have hbetween {sign : ℤ} {size : ℤ ×ₗ ℤ} (hsign : -2 < sign ∧ sign < 2)
      (hx : place x = some (toLex (sign, size))) : infinity true < x ∧ x < infinity false :=
    ⟨lt_iff_place.mpr ⟨_, hlow, _, hx, Prod.Lex.toLex_lt_toLex.mpr (.inl hsign.1)⟩,
      lt_iff_place.mpr ⟨_, hx, _, hhigh, Prod.Lex.toLex_lt_toLex.mpr (.inl hsign.2)⟩⟩
  have hplace : place x = placeOfUnpacked x.toModel.unpack := rfl
  have hread := decode_eq x
  cases hunpack : x.toModel.unpack with
  | notANumber =>
    rw [hunpack] at hplace
    rw [isNaN_iff_place.mpr hplace] at h
    cases h
  | infinity s =>
    rw [hunpack] at hread
    exact .inl ⟨_, infinity_of_decode hread⟩
  | zero s =>
    rw [hunpack] at hplace
    exact .inr (hbetween (by decide) hplace)
  | finite s m e hm =>
    rw [hunpack] at hplace
    cases s with
    | negative => exact .inr (hbetween (by decide) hplace)
    | positive => exact .inr (hbetween (by decide) hplace)

/-! ## The order -/

theorem le_self_iff {x : Float} : x ≤ x ↔ x.isNaN = false := by
  rw [← Bool.not_eq_true, isNaN_iff_place, le_iff_place]
  cases place x <;> simp

theorem le_self_of_le {x y : Float} (h : x ≤ y) : x ≤ x ∧ y ≤ y := by
  obtain ⟨p, hp, q, hq, -⟩ := le_iff_place.mp h
  exact ⟨le_iff_place.mpr ⟨p, hp, p, hp, le_rfl⟩, le_iff_place.mpr ⟨q, hq, q, hq, le_rfl⟩⟩

instance isTrans_le : IsTrans Float (· ≤ ·) where
  trans x y z hxy hyz := by
    rw [le_iff_place] at hxy hyz ⊢
    obtain ⟨p, hp, q, hq, hpq⟩ := hxy
    obtain ⟨q', hq', r, hr, hqr⟩ := hyz
    obtain rfl := Option.mem_unique hq hq'
    exact ⟨p, hp, r, hr, hpq.trans hqr⟩

theorem beq_of_le_of_le {x y : Float} (hxy : x ≤ y) (hyx : y ≤ x) : x == y := by
  rw [le_iff_place] at hxy hyx
  obtain ⟨p, hp, q, hq, hpq⟩ := hxy
  obtain ⟨q', hq', p', hp', hqp⟩ := hyx
  obtain rfl := Option.mem_unique hp hp'
  obtain rfl := Option.mem_unique hq hq'
  obtain rfl := le_antisymm hpq hqp
  exact beq_iff_place.mpr ⟨p, hp, hq⟩

/-! ## The lesser and the greater of two -/

open Space

/-- The place of a double, with the undefined one after all others. -/
def placeLast (x : Float) : WithTop Place := (place x).elim ⊤ WithTop.some

/-- The place of a double, with the undefined one before all others. -/
def placeFirst (x : Float) : WithBot Place := (place x).elim ⊥ WithBot.some

theorem least_eq_minOn : (Coordinate.least : Float → Float → Float) = minOn placeLast := by
  funext x y
  have hleast : Coordinate.least x y = if y < x ∨ place x = none then y else x := by
    simp only [← isNaN_iff_place]
    show (if decide (y < x) || x.isNaN then y else x) = _
    simp only [Bool.or_eq_true, decide_eq_true_iff]
  rw [hleast, minOn]
  cases hx : place x <;> cases hy : place y
  case none.none => simp [placeLast, hy, eq_of_place_eq_none hx hy]
  all_goals simp [placeLast, lt_iff_place, hx, hy, ← not_lt]

theorem greatest_eq_maxOn : (Coordinate.greatest : Float → Float → Float) = maxOn placeFirst := by
  funext x y
  have hgreatest : Coordinate.greatest x y = if x < y ∨ place x = none then y else x := by
    simp only [← isNaN_iff_place]
    show (if decide (x < y) || x.isNaN then y else x) = _
    simp only [Bool.or_eq_true, decide_eq_true_iff]
  rw [hgreatest, maxOn_eq_if]
  cases hx : place x <;> cases hy : place y
  case none.none => simp [placeFirst, hy, eq_of_place_eq_none hx hy]
  all_goals simp [placeFirst, lt_iff_place, hx, hy, ← not_lt]

instance : Std.Associative (Coordinate.least : Float → Float → Float) :=
  least_eq_minOn ▸ inferInstance

instance : Std.Associative (Coordinate.greatest : Float → Float → Float) :=
  greatest_eq_maxOn ▸ inferInstance

/-- From the upper end on, the lesser of two is the other one, unless that is undefined. -/
theorem least_infinity (x : Float) :
    Coordinate.least (infinity false) x = Coordinate.lowerBound x := by
  show (if decide (x < infinity false) || false then x else infinity false) =
    if x.isNaN then infinity false else x
  cases hnan : x.isNaN with
  | true =>
    rw [decide_eq_false (not_lt_of_isNaN hnan).1]
    rfl
  | false =>
    rcases infinite_or_between hnan with ⟨_ | _, rfl⟩ | ⟨-, hlt⟩
    · rfl
    · rfl
    · rw [decide_eq_true hlt]
      rfl

/-- From the lower end on, the greater of two is the other one, unless that is undefined. -/
theorem greatest_infinity (x : Float) :
    Coordinate.greatest (infinity true) x = Coordinate.upperBound x := by
  show (if decide (infinity true < x) || false then x else infinity true) =
    if x.isNaN then infinity true else x
  cases hnan : x.isNaN with
  | true =>
    rw [decide_eq_false (not_lt_of_isNaN hnan).2]
    rfl
  | false =>
    rcases infinite_or_between hnan with ⟨_ | _, rfl⟩ | ⟨hlt, -⟩
    · rfl
    · rfl
    · rw [decide_eq_true hlt]
      rfl

theorem le_iff_placeLast {x y : Float} :
    x ≤ y ↔ placeLast x ≤ placeLast y ∧ placeLast y ≠ ⊤ := by
  rw [le_iff_place]
  cases hx : place x <;> cases hy : place y <;> simp [placeLast, hx, hy]

theorem le_iff_placeFirst {x y : Float} :
    x ≤ y ↔ placeFirst x ≤ placeFirst y ∧ placeFirst x ≠ ⊥ := by
  rw [le_iff_place]
  cases hx : place x <;> cases hy : place y <;> simp [placeFirst, hx, hy]

theorem le_least_iff {c x y : Float} (hx : x ≤ x) (hy : y ≤ y) :
    c ≤ Coordinate.least x y ↔ c ≤ x ∧ c ≤ y := by
  rw [le_iff_placeLast] at hx hy
  have hleast : placeLast (minOn placeLast x y) ≠ ⊤ := by
    rcases minOn_eq_or (f := placeLast) (x := x) (y := y) with h | h <;> rw [h]
    exacts [hx.2, hy.2]
  simp only [le_iff_placeLast, least_eq_minOn, le_apply_minOn_iff, hleast, hx.2, hy.2, ne_eq,
    not_false_eq_true, and_true]

theorem greatest_le_iff {c x y : Float} (hx : x ≤ x) (hy : y ≤ y) :
    Coordinate.greatest x y ≤ c ↔ x ≤ c ∧ y ≤ c := by
  rw [le_iff_placeFirst] at hx hy
  have hgreatest : placeFirst (maxOn placeFirst x y) ≠ ⊥ := by
    rcases maxOn_eq_or (f := placeFirst) (x := x) (y := y) with h | h <;> rw [h]
    exacts [hx.2, hy.2]
  simp only [le_iff_placeFirst, greatest_eq_maxOn, apply_maxOn_le_iff, hgreatest, hx.2, hy.2,
    ne_eq, not_false_eq_true, and_true]

theorem least_le {x y : Float} (hx : x ≤ x) (hy : y ≤ y) :
    Coordinate.least x y ≤ x ∧ Coordinate.least x y ≤ y := by
  rw [← le_least_iff hx hy, least_eq_minOn]
  rcases minOn_eq_or (f := placeLast) (x := x) (y := y) with h | h <;> rw [h]
  exacts [hx, hy]

theorem le_greatest {x y : Float} (hx : x ≤ x) (hy : y ≤ y) :
    x ≤ Coordinate.greatest x y ∧ y ≤ Coordinate.greatest x y := by
  rw [← greatest_le_iff hx hy, greatest_eq_maxOn]
  rcases maxOn_eq_or (f := placeFirst) (x := x) (y := y) with h | h <;> rw [h]
  exacts [hx, hy]

end SolidScript.Number
