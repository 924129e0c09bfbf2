import SolidScript.Number.Binary

/-!
# Reading decimals

A numeral is a sign, a run of digits and a power of ten. `Numeral.toFloat` rounds it to the
nearest double. `Numeral.float?` reads the free form used where people type numbers: an optional
sign, digits with an optional point at either end of them or between them, an optional exponent,
or one of the words for numbers that are not finite, in any case.
-/

namespace SolidScript.Number

/-- `± digits * 10 ^ exponent`. -/
structure Numeral where
  negative : Bool
  digits : Nat
  exponent : Int
  deriving DecidableEq, Repr

/-- The value of a run of decimal digits. -/
def digitsValue (digits : List Char) : Nat :=
  digits.foldl (fun value c => 10 * value + (c.toNat - '0'.toNat)) 0

namespace Numeral

/-- The nearest double. Numbers from `10 ^ 309` on are infinite and those below `10 ^ -330` round
to zero, which keeps the powers of ten in reach. -/
def toFloat (n : Numeral) : Float :=
  let place := n.exponent + (Nat.toDigits 10 n.digits).length
  if n.digits = 0 ∨ place < -330 then encode n.negative 0 Format.double.least
  else if 310 < place then infinity n.negative
  else
    let (up, down) := powerOfTen n.exponent
    ofFraction n.negative (n.digits * up) down

/-- An optional sign and the text after it. -/
def sign : List Char → Bool × List Char
  | '-' :: rest => (true, rest)
  | '+' :: rest => (false, rest)
  | text => (false, text)

/-- The exponent part after its letter: a sign and at least one digit, to the end. -/
def exponent? (text : List Char) : Option Int :=
  let (negative, digits) := sign text
  if digits.isEmpty || !digits.all Char.isDigit then none
  else
    let value : Int := digitsValue digits
    some (if negative then -value else value)

/-- Digits, an optional point with digits, and an optional exponent, to the end. There is a digit
before the point or after it. -/
def unsigned? (negative : Bool) (text : List Char) : Option Numeral :=
  let whole := text.takeWhile Char.isDigit
  let afterWhole := text.dropWhile Char.isDigit
  let (fraction, rest) := match afterWhole with
    | '.' :: after => (after.takeWhile Char.isDigit, after.dropWhile Char.isDigit)
    | _ => ([], afterWhole)
  if whole.isEmpty && fraction.isEmpty then none
  else
    let numeral (e : Int) : Numeral :=
      ⟨negative, digitsValue (whole ++ fraction), e - fraction.length⟩
    match rest with
    | [] => some (numeral 0)
    | c :: after => if c == 'e' || c == 'E' then (exponent? after).map numeral else none

/-- A double in the free form. -/
def float? (text : String) : Option Float :=
  let (negative, body) := sign text.toList
  match String.ofList (body.map Char.toLower) with
  | "inf" | "infinity" => some (infinity negative)
  | "nan" => some undefined
  | _ => (unsigned? negative body).map toFloat

/-- A natural number below `bound`: ASCII digits after an optional plus sign. -/
def natural? (bound : Nat) (text : String) : Option Nat :=
  let digits := match text.toList with
    | '+' :: rest => rest
    | all => all
  let value := digitsValue digits
  if digits.isEmpty || !digits.all Char.isDigit || bound ≤ value then none else some value

end Numeral

end SolidScript.Number
