import SolidScript.Number.Binary
import SolidScript.Space.Quaternion

/-!
# Coordinates

What boxes and motions ask of a type of coordinates beyond its arithmetic: an order with lesser
and greater of two, absolute values, square roots, whole numbers, and the matrix of a rotation.
Programs run on doubles. Exact laws hold over an ordered field with any choice of rotations.
-/

namespace SolidScript.Space

/-- Order, magnitude and rotation for coordinates. -/
class Coordinate (R : Type) where
  least : R → R → R
  greatest : R → R → R
  /-- The lower bound that a single coordinate gives. -/
  lowerBound : R → R
  /-- The upper bound that a single coordinate gives. -/
  upperBound : R → R
  atMost : R → R → Bool
  below : R → R → Bool
  magnitude : R → R
  sqrt : R → R
  ofInt : Int → R
  /-- The rotation by angles in degrees about X, then Y, then Z. -/
  turn : Vec3 R → Linear R

/-- On doubles an undefined operand loses against the other one, and a single undefined
coordinate bounds nothing. -/
instance : Coordinate Float where
  least a b := if b < a || a.isNaN then b else a
  greatest a b := if a < b || a.isNaN then b else a
  lowerBound a := if a.isNaN then Number.infinity false else a
  upperBound a := if a.isNaN then Number.infinity true else a
  atMost a b := a ≤ b
  below a b := a < b
  magnitude := Float.abs
  sqrt := Float.sqrt
  ofInt := Float.ofInt
  turn angles := (Quaternion.euler angles).linear

variable {R : Type} [Zero R] [One R] [Add R] [Neg R] [Mul R] [Div R] [BEq R] [Coordinate R]

namespace Vec3

def least (v w : Vec3 R) : Vec3 R := zipWith Coordinate.least v w

def greatest (v w : Vec3 R) : Vec3 R := zipWith Coordinate.greatest v w

def length (v : Vec3 R) : R := Coordinate.sqrt (v.dot v)

end Vec3

/-- Whether two numbers differ by less than a tolerance. -/
def isNear (tolerance a b : R) : Bool :=
  Coordinate.below (Coordinate.magnitude (a + -b)) tolerance

def Vec3.isNear (tolerance : R) (v w : Vec3 R) : Bool :=
  Space.isNear tolerance v.x w.x && Space.isNear tolerance v.y w.y &&
    Space.isNear tolerance v.z w.z

/-- The reflection across the plane through the origin with the given normal; a normal of length
zero reflects nothing. -/
def Linear.reflection (normal : Vec3 R) : Linear R :=
  if normal.length == 0 then Linear.identity
  else Linear.reflectionAcross (normal.div normal.length)

end SolidScript.Space
