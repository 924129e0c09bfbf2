import SolidScript.Space.Coordinate

/-!
# Argument values

What a part is called with: truth values, whole numbers, numbers over a type of coordinates,
strings, bare identifiers and lists of values. The readings `number?`, `flag?` and `vector?` say
which values stand for a number, a truth value or a point.
-/

namespace SolidScript

open Space

/-- Why an index is no whole number of 64 bits with a sign. -/
inductive IndexFault where
  | tooLarge
  deriving DecidableEq, Repr

def IndexFault.message : IndexFault → String
  | tooLarge => "number too large to fit in target type"

inductive Value (R : Type) where
  | bool (b : Bool)
  | int (n : Int64)
  | real (r : R)
  | text (s : String)
  | ident (name : String)
  | list (items : List (Value R))

namespace Value

variable {R : Type}

mutual

/-- Values are equal when they are of one sort and their contents are; a whole number never
equals a number with a fraction part. -/
def beq [BEq R] : Value R → Value R → Bool
  | bool a, bool b => a == b
  | int a, int b => a == b
  | real a, real b => a == b
  | text a, text b => a == b
  | ident a, ident b => a == b
  | list as, list bs => beqAll as bs
  | _, _ => false

def beqAll [BEq R] : List (Value R) → List (Value R) → Bool
  | [], [] => true
  | a :: as, b :: bs => beq a b && beqAll as bs
  | _, _ => false

end

instance [BEq R] : BEq (Value R) := ⟨beq⟩

/-- The word for the sort of a value. -/
def sort : Value R → String
  | bool _ => "bool"
  | int _ => "int"
  | real _ => "float"
  | text _ => "string"
  | ident _ => "identifier"
  | list _ => "list"

def number? [Coordinate R] : Value R → Option R
  | int n => some (Coordinate.ofInt n.toInt)
  | real r => some r
  | _ => none

def flag? : Value R → Option Bool
  | bool b => some b
  | _ => none

def items? : Value R → Option (List (Value R))
  | list items => some items
  | _ => none

/-- The point that a value stands for: three numbers, two numbers in the plane, or one number on
all axes. -/
def vector? [Zero R] [Coordinate R] (v : Value R) : Option (Vec3 R) :=
  match v with
  | list [x, y, z] => do return ⟨← x.number?, ← y.number?, ← z.number?⟩
  | list [x, y] => do return ⟨← x.number?, ← y.number?, 0⟩
  | v => v.number?.map Vec3.all

def reals (rs : List R) : Value R := list (rs.map real)

def vector (v : Vec3 R) : Value R := reals v.toList

/-- An index as a whole number, if it fits. -/
def ofIndex (n : Nat) : Except IndexFault (Value R) :=
  if (n : Int) ≤ Int64.maxValue.toInt then .ok (int (Int64.ofNat n)) else .error .tooLarge

end Value

end SolidScript
