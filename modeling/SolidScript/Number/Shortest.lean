import SolidScript.Number.Binary

/-!
# The shortest decimal

Among the decimals that round to a given double, `shortest` takes one with the fewest digits, and
of those the one nearest to the double. The search goes over the grids of multiples of `10 ^ g`
from coarse to fine: a grid has a multiple that rounds to the double only if one of the two
multiples around the double does.
-/

namespace SolidScript.Number

/-- The reals that round to `m * 2 ^ q`, in quarters of `2 ^ q`: from `low` to `high`, ends
included when `m` is even. -/
structure Neighbourhood where
  middle : Nat
  low : Nat
  high : Nat
  closed : Bool

/-- Below a power of two the next double is half as far away as above it. -/
def neighbourhood (m : Nat) (q : Int) : Neighbourhood where
  middle := 4 * m
  low := if m = exponentWeight ∧ -1074 < q then 4 * m - 1 else 4 * m - 2
  high := 4 * m + 2
  closed := m % 2 = 0

/-- Whether `c / b` quarters lie in the neighbourhood. -/
def Neighbourhood.holds (r : Neighbourhood) (b c : Nat) : Bool :=
  if r.closed then r.low * b ≤ c && c ≤ r.high * b else r.low * b < c && c < r.high * b

/-- The multiple of `10 ^ g` that stands for `m * 2 ^ q`: the nearer of the two around it that
round to it, the larger one on a tie. The answer is the factor of `10 ^ g`. -/
def multipleOn (m : Nat) (q g : Int) : Option Nat :=
  let r := neighbourhood m q
  let (tenUp, tenDown) := powerOfTen g
  let (twoUp, twoDown) := powerOfTwo (q - 2)
  -- a factor `c` is `c * a / b` quarters
  let a := tenUp * twoDown
  let b := twoUp * tenDown
  let below := r.middle * b / a
  let above := below + 1
  let nearerBelow := r.middle * b - below * a < above * a - r.middle * b
  match r.holds b (below * a), r.holds b (above * a) with
  | true, true => some (if nearerBelow then below else above)
  | true, false => some below
  | false, true => some above
  | false, false => none

/-- Every double is a multiple of `10 ^ -1074`. -/
def finestGrid : Int := -1074

/-- The search from the grid of `10 ^ (finestGrid + n)` down. -/
def shortestFrom (m : Nat) (q : Int) : Nat → Nat × Int
  | 0 => ((multipleOn m q finestGrid).getD 0, finestGrid)
  | n + 1 =>
    match multipleOn m q (finestGrid + (n + 1 : Nat)) with
    | some c => (c, finestGrid + (n + 1 : Nat))
    | none => shortestFrom m q n

/-- Digits and exponent of the shortest decimal for `m * 2 ^ q`, where `m` is positive. No double
reaches `10 ^ 309`, so the search starts there. -/
def shortest (m : Nat) (q : Int) : Nat × Int := shortestFrom m q (1074 + 309)

/-! ## Layout -/

/-- How digits are laid out. A number is written out positionally when the place of its first
digit (0 for units, -1 for tenths) lies in the range, and with an exponent otherwise. -/
structure Layout where
  positional : Option (Int × Int)
  /-- Whole numbers keep one zero after the point. -/
  keepsPoint : Bool
  undefinedWord : String

/-- The form shown to readers: never an exponent, and no point in whole numbers. -/
def Layout.plain : Layout := ⟨none, false, "NaN"⟩

/-- The form shown to developers: an exponent below `10 ^ -4` and from `10 ^ 16` on, and a point
otherwise. -/
def Layout.inspection : Layout := ⟨some (-4, 15), true, "NaN"⟩

/-- The form in settings files: never an exponent, always a point. -/
def Layout.settings : Layout := ⟨none, true, "nan"⟩

/-- Digits with a point, for the number `digits * 10 ^ exponent`. -/
def positionalText (keepsPoint : Bool) (digits : List Char) (exponent : Int) : List Char :=
  if 0 ≤ exponent then
    digits ++ List.replicate exponent.toNat '0' ++ if keepsPoint then ['.', '0'] else []
  else
    let places := (-exponent).toNat
    if places < digits.length then
      digits.take (digits.length - places) ++ '.' :: digits.drop (digits.length - places)
    else ['0', '.'] ++ List.replicate (places - digits.length) '0' ++ digits

/-- One digit, the others after a point, and the place of the first digit as exponent. -/
def exponentText (digits : List Char) (exponent : Int) : List Char :=
  let place := exponent + digits.length - 1
  let sign := if place < 0 then ['-'] else []
  let rest := if digits.length ≤ 1 then [] else '.' :: digits.drop 1
  digits.take 1 ++ rest ++ 'e' :: sign ++ Nat.toDigits 10 place.natAbs

/-- The shortest digits of a positive number in the given layout. -/
def Layout.digits (layout : Layout) (m : Nat) (q : Int) : List Char :=
  let (c, exponent) := shortest m q
  let digits := Nat.toDigits 10 c
  let place := exponent + digits.length - 1
  match layout.positional with
  | none => positionalText layout.keepsPoint digits exponent
  | some (least, greatest) =>
    if least ≤ place ∧ place ≤ greatest then positionalText layout.keepsPoint digits exponent
    else exponentText digits exponent

/-- A double in the given layout; the sign of zero is kept. -/
def Layout.text (layout : Layout) (x : Float) : String :=
  match decode x with
  | .finite negative m q =>
    let sign := if negative then ['-'] else []
    let body := if m = 0 then (if layout.keepsPoint then ['0', '.', '0'] else ['0'])
      else layout.digits m q
    String.ofList (sign ++ body)
  | .infinite negative => (NonFinite.infinite negative).text
  | .undefined => layout.undefinedWord

end SolidScript.Number
