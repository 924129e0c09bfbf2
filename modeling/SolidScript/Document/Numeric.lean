import SolidScript.Document.Reader
import SolidScript.Document.Table
import SolidScript.Number.Numeral

/-!
# Numbers and dates of a settings document

Digits may have single underscores between them. Whole numbers fit 64 bits with a sign and are
decimal without leading zeros, or hexadecimal, octal or binary without a sign. Other numbers have
a fraction or an exponent; one that is too large is refused when it is positive. Dates and times
are checked and otherwise ignored.
-/

namespace SolidScript.Document

open Number

/-- A digit, after an underscore or not. -/
def digit (isDigit : Char → Bool) : Reader Char
  | '_' :: c :: rest => if isDigit c then some (c, rest) else none
  | c :: rest => if isDigit c then some (c, rest) else none
  | [] => none

def digits (isDigit : Char → Bool) : Reader (List Char)
  | [] => none
  | c :: rest =>
    if isDigit c then
      let (others, final) := repeated (digit isDigit) rest
      some (c :: others, final)
    else none

/-- A decimal whole number after its sign: a zero alone, or digits that begin with another one. -/
def wholeDigits : Reader (List Char)
  | '0' :: rest => some (['0'], rest)
  | text => digits Char.isDigit text

/-- An exponent after its letter. -/
def exponentOf? (text : List Char) : Option (Int × List Char) := do
  let (negative, body) := Numeral.sign text
  let (ds, rest) ← digits Char.isDigit body
  let value : Int := digitsValue ds
  return (if negative then -value else value, rest)

def exponent? : List Char → Option (Int × List Char)
  | c :: rest => if c = 'e' ∨ c = 'E' then exponentOf? rest else none
  | [] => none

/-- A number with a fraction, an exponent or both. -/
def numeral? (text : List Char) : Option (Numeral × List Char) := do
  let (negative, body) := Numeral.sign text
  let (whole, rest) ← wholeDigits body
  match rest with
  | '.' :: after =>
    let (fraction, rest) ← digits Char.isDigit after
    let (e, rest) := (exponent? rest).getD (0, rest)
    return (⟨negative, digitsValue (whole ++ fraction), e - fraction.length⟩, rest)
  | _ =>
    let (e, rest) ← exponent? rest
    return (⟨negative, digitsValue whole, e⟩, rest)

/-- A number with a fraction or an exponent, or one of the words for infinite and undefined
ones. -/
def decimal : Reader Entry := fun text =>
  match numeral? text with
  | some (numeral, rest) =>
    let x := numeral.toFloat
    if x == infinity false then none else some (.decimal x, rest)
  | none =>
    let (negative, body) := Numeral.sign text
    match word ['i', 'n', 'f'] body with
    | some rest => some (.decimal (infinity negative), rest)
    | none => (word ['n', 'a', 'n'] body).map fun rest => (.decimal undefined, rest)

/-- Whole numbers lie below this bound, and not below its negative. -/
def wholeBound : Nat := 0x8000000000000000

/-- Digits in a base that is a power of two, as a whole number. -/
def based (base : Nat) (text : List Char) : Option (Entry × List Char) := do
  let isDigit (c : Char) : Bool := (hexDigit? c).any (· < base)
  let (ds, rest) ← digits isDigit text
  let value := ds.foldl (fun value c => base * value + (hexDigit? c).getD 0) 0
  if value < wholeBound then some (.integer value, rest) else none

def integer : Reader Entry
  | '0' :: 'x' :: rest => based 16 rest
  | '0' :: 'o' :: rest => based 8 rest
  | '0' :: 'b' :: rest => based 2 rest
  | text => do
    let (negative, body) := Numeral.sign text
    let (ds, rest) ← wholeDigits body
    let size := digitsValue ds
    if negative then
      if size ≤ wholeBound then some (.integer (-size), rest) else none
    else if size < wholeBound then some (.integer size, rest) else none

/-! ## Dates and times -/

/-- A number in a fixed count of digits, within bounds. -/
def field (count least greatest : Nat) (text : List Char) : Option (Nat × List Char) :=
  let ds := text.take count
  let value := digitsValue ds
  if ds.length = count ∧ ds.all Char.isDigit ∧ least ≤ value ∧ value ≤ greatest then
    some (value, text.drop count)
  else none

def daysIn (year month : Nat) : Nat :=
  if month = 2 then
    if year % 4 = 0 ∧ (year % 100 ≠ 0 ∨ year % 400 = 0) then 29 else 28
  else if [4, 6, 9, 11].contains month then 30 else 31

def date? (text : List Char) : Option (List Char) := do
  let (year, rest) ← field 4 0 9999 text
  let rest ← word ['-'] rest
  let (month, rest) ← field 2 1 12 rest
  let rest ← word ['-'] rest
  let (_, rest) ← field 2 1 (daysIn year month) rest
  return rest

/-- A time of day by hour, minute and second, with a fraction of the second if there is one. -/
def time? (text : List Char) : Option (List Char) := do
  let (_, rest) ← field 2 0 23 text
  let rest ← word [':'] rest
  let (_, rest) ← field 2 0 59 rest
  let rest ← word [':'] rest
  let (_, rest) ← field 2 0 60 rest
  match rest with
  | '.' :: c :: after => if c.isDigit then some (after.dropWhile Char.isDigit) else some rest
  | _ => some rest

/-- The distance from universal time, if it is given. -/
def zone (text : List Char) : List Char :=
  let distance (rest : List Char) : Option (List Char) := do
    let (_, rest) ← field 2 0 23 rest
    let rest ← word [':'] rest
    let (_, rest) ← field 2 0 59 rest
    return rest
  match text with
  | 'Z' :: rest | 'z' :: rest => rest
  | '+' :: rest | '-' :: rest => (distance rest).getD text
  | _ => text

/-- A day, a time of day, or both, then with a distance from universal time. -/
def moment : Reader Entry := fun text =>
  match date? text with
  | none => (time? text).map fun rest => (.other, rest)
  | some rest =>
    let after := match rest with
      | c :: time =>
        if c = 'T' ∨ c = 't' ∨ c = ' ' then ((time? time).map zone).getD rest else rest
      | [] => rest
    some (.other, after)

def numeric : Reader Entry := fun text =>
  moment text <|> decimal text <|> integer text

end SolidScript.Document
