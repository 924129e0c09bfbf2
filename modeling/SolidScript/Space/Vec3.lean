/-!
# Vectors

Points and directions in space, over any type of coordinates. Each operation uses the arithmetic
of the coordinates in the order written here, so that it also says what rounding does.
-/

namespace SolidScript.Space

structure Vec3 (R : Type) where
  x : R
  y : R
  z : R
  deriving BEq, DecidableEq, Repr, Inhabited

namespace Vec3

variable {R : Type}

def map {S : Type} (f : R → S) (v : Vec3 R) : Vec3 S := ⟨f v.x, f v.y, f v.z⟩

def zipWith {S T : Type} (f : R → S → T) (v : Vec3 R) (w : Vec3 S) : Vec3 T :=
  ⟨f v.x w.x, f v.y w.y, f v.z w.z⟩

def all (r : R) : Vec3 R := ⟨r, r, r⟩

def toList (v : Vec3 R) : List R := [v.x, v.y, v.z]

section Arithmetic

variable [Zero R] [One R] [Add R] [Neg R] [Mul R] [Div R] [BEq R]

instance : Zero (Vec3 R) := ⟨⟨0, 0, 0⟩⟩

/-- The unit vectors of the axes. -/
def unitX : Vec3 R := ⟨1, 0, 0⟩

@[inherit_doc unitX] def unitY : Vec3 R := ⟨0, 1, 0⟩

@[inherit_doc unitX] def unitZ : Vec3 R := ⟨0, 0, 1⟩

instance : Add (Vec3 R) := ⟨zipWith (· + ·)⟩

instance : Neg (Vec3 R) := ⟨map (- ·)⟩

instance : Sub (Vec3 R) := ⟨fun v w => v + -w⟩

def shift (v : Vec3 R) (x y z : R) : Vec3 R := v + ⟨x, y, z⟩

def scale (v w : Vec3 R) : Vec3 R := zipWith (· * ·) v w

def times (v : Vec3 R) (r : R) : Vec3 R := v.map (· * r)

def div (v : Vec3 R) (r : R) : Vec3 R := v.map (· / r)

def half (v : Vec3 R) : Vec3 R := v.div (1 + 1)

def dot (v w : Vec3 R) : R := v.x * w.x + v.y * w.y + v.z * w.z

def cross (v w : Vec3 R) : Vec3 R :=
  ⟨v.y * w.z + -(v.z * w.y), v.z * w.x + -(v.x * w.z), v.x * w.y + -(v.y * w.x)⟩

/-- Whether every coordinate is zero, of either sign where zero has two. -/
def isZero (v : Vec3 R) : Bool := v.x == 0 && v.y == 0 && v.z == 0

end Arithmetic

end Vec3

end SolidScript.Space
