import SolidScript.Number.Binary

/-!
# Numbers with at most six decimals

Scripts hold numbers as decimal literals: the exact value is rounded to a whole number of
millionths, ties to even, and zeros that end the fraction are left out, with the point when
nothing follows it. Zero has no sign.
-/

namespace SolidScript.Number

def million : Nat := 1000000

/-- `m * 2 ^ q` in millionths, rounded to the nearest, ties to even. -/
def millionths (m : Nat) (q : Int) : Nat :=
  let (up, down) := powerOfTwo q
  roundDiv (m * million * up) down

/-- Exactly six digits, for a number below a million. -/
def sixDigits (n : Nat) : List Char :=
  let digits := Nat.toDigits 10 n
  List.replicate (6 - digits.length) '0' ++ digits

def dropLastZeros (digits : List Char) : List Char :=
  (digits.reverse.dropWhile (· == '0')).reverse

/-- The literal for `n` millionths. -/
def millionthsLiteral (negative : Bool) (n : Nat) : List Char :=
  let sign := if negative && n ≠ 0 then ['-'] else []
  let fraction := dropLastZeros (sixDigits (n % million))
  let point := if fraction.isEmpty then [] else '.' :: fraction
  sign ++ Nat.toDigits 10 (n / million) ++ point

def wholeLiteral (n : Int) : String :=
  String.ofList ((if n < 0 then ['-'] else []) ++ Nat.toDigits 10 n.natAbs)

/-- A number as scripts hold it; numbers that are not finite are given by their words. -/
def literal (x : Float) : String :=
  match decode x with
  | .finite negative m q => String.ofList (millionthsLiteral negative (millionths m q))
  | .infinite negative => (NonFinite.infinite negative).text
  | .undefined => NonFinite.undefined.text

end SolidScript.Number
