import SolidScript.Number.Rounding

/-!
# Binary floating point

A finite double is `± significand * 2 ^ exponent` for natural numbers and integers, so every
exact rule about it can be said in exact arithmetic. `decode` takes a double apart, `encode` puts
one together, and `Format.nearest` rounds a fraction to the nearest number of a format, ties
to the even significand.
-/

namespace SolidScript.Number

/-- `2 ^ e` as a fraction, for an exponent of either sign. -/
def powerOfTwo (e : Int) : Nat × Nat := (Nat.pow 2 e.toNat, Nat.pow 2 (-e).toNat)

/-- `10 ^ e` as a fraction, for an exponent of either sign. -/
def powerOfTen (e : Int) : Nat × Nat := (Nat.pow 10 e.toNat, Nat.pow 10 (-e).toNat)

/-- A binary floating-point format: its finite numbers are `± m * 2 ^ q` with
`m < 2 ^ precision` and `least ≤ q ≤ greatest`. -/
structure Format where
  precision : Nat
  least : Int
  greatest : Int

namespace Format

def double : Format := ⟨53, -1074, 971⟩

def single : Format := ⟨24, -149, 104⟩

end Format

/-- The exponent `e` with `2 ^ e ≤ num / den < 2 ^ (e + 1)`, for positive `num` and `den`. -/
def binaryOrder (num den : Nat) : Int :=
  let e : Int := (num.log2 : Int) - den.log2
  let (up, down) := powerOfTwo e
  if den * up ≤ num * down then e else e - 1

/-- Significand and exponent of the number of the format nearest to `num / den`, ties to the even
significand; nothing when it is too large for the format. -/
def Format.nearest (format : Format) (num den : Nat) : Option (Nat × Int) :=
  if num = 0 then some (0, format.least)
  else
    let q := max format.least (binaryOrder num den + 1 - format.precision)
    let (up, down) := powerOfTwo q
    let m := roundDiv (num * down) (den * up)
    let (m, q) :=
      if m = Nat.pow 2 format.precision then (Nat.pow 2 (format.precision - 1), q + 1) else (m, q)
    if q ≤ format.greatest then some (m, q) else none

/-! ## Doubles -/

/-- The weight of the sign in the bits of a double, `2 ^ 63`. -/
def signWeight : Nat := 0x8000000000000000

/-- The weight of the exponent in the bits of a double, `2 ^ 52`; also the first bit of a normal
significand, which is implied. -/
def exponentWeight : Nat := 0x10000000000000

/-- What a double stands for. -/
inductive Reading where
  | finite (negative : Bool) (significand : Nat) (exponent : Int)
  | infinite (negative : Bool)
  | undefined
  deriving DecidableEq, Repr

/-- Take a double apart. A normal number has 53 significant bits, the first of them implied; a
subnormal one has the least exponent. -/
def decode (x : Float) : Reading :=
  let bits : Nat := x.toBits.toNat
  let negative := bits / signWeight == 1
  let biased : Nat := bits / exponentWeight % 2048
  let fraction := bits % exponentWeight
  if biased = 2047 then
    if fraction = 0 then .infinite negative else .undefined
  else if biased = 0 then .finite negative fraction (-1074)
  else .finite negative (fraction + exponentWeight) ((biased : Int) - 1075)

/-- The double of the given sign that stands for `m * 2 ^ q`, where `m < 2 ^ 53`, and
`2 ^ 52 ≤ m` unless `q` is the least exponent. -/
def encode (negative : Bool) (m : Nat) (q : Int) : Float :=
  let sign := if negative then signWeight else 0
  let magnitude :=
    if m < exponentWeight then m
    else (q + 1075).toNat * exponentWeight + (m - exponentWeight)
  Float.ofBits (UInt64.ofNat (sign + magnitude))

def infinity (negative : Bool) : Float :=
  Float.ofBits (if negative then 0xfff0000000000000 else 0x7ff0000000000000)

def undefined : Float := Float.ofBits 0x7ff8000000000000

/-- The double nearest to `± num / den`, ties to the even significand, infinite when too large. -/
def ofFraction (negative : Bool) (num den : Nat) : Float :=
  match Format.double.nearest num den with
  | some (m, q) => encode negative m q
  | none => infinity negative

/-- A double rounded to single precision. -/
def toSingle (x : Float) : Float :=
  match decode x with
  | .finite negative m q =>
    let (up, down) := powerOfTwo q
    match Format.single.nearest (m * up) down with
    | some (m, q) =>
      let (up, down) := powerOfTwo q
      ofFraction negative (m * up) down
    | none => infinity negative
  | .infinite _ | .undefined => x

/-- A number that is not finite, and so has no literal. -/
inductive NonFinite where
  | undefined
  | infinite (negative : Bool)
  deriving DecidableEq, Repr

/-- The words for numbers without a literal: no sign on the undefined one. -/
def NonFinite.text : NonFinite → String
  | .undefined => "NaN"
  | .infinite false => "inf"
  | .infinite true => "-inf"

/-- Why a double has no literal, if it has none. -/
def nonFinite? (x : Float) : Option NonFinite :=
  match decode x with
  | .finite .. => none
  | .infinite negative => some (.infinite negative)
  | .undefined => some .undefined

end SolidScript.Number
