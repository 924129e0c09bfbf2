import SolidScript.Space.Vec3

/-!
# Matrices

`Linear` is a 3 by 3 matrix by rows, `Homogeneous` a 4 by 4 matrix on homogeneous coordinates.
A homogeneous matrix acts on a point by its first three rows, divided by what its last row gives
unless that is zero.
-/

namespace SolidScript.Space

variable {R : Type} [Zero R] [One R] [Add R] [Neg R] [Mul R] [Div R] [BEq R]

/-- A linear map by the rows of its matrix. -/
structure Linear (R : Type) where
  x : Vec3 R
  y : Vec3 R
  z : Vec3 R
  deriving Repr

structure Row (R : Type) where
  x : R
  y : R
  z : R
  w : R
  deriving Repr

/-- A matrix on homogeneous coordinates by its rows. -/
structure Homogeneous (R : Type) where
  x : Row R
  y : Row R
  z : Row R
  w : Row R
  deriving Repr

namespace Linear

def identity : Linear R := ⟨Vec3.unitX, Vec3.unitY, Vec3.unitZ⟩

def apply (m : Linear R) (v : Vec3 R) : Vec3 R := ⟨m.x.dot v, m.y.dot v, m.z.dot v⟩

/-- A row of a linear map, which moves nothing. -/
def rowOf (v : Vec3 R) : Row R := ⟨v.x, v.y, v.z, 0⟩

def homogeneous (m : Linear R) : Homogeneous R :=
  ⟨rowOf m.x, rowOf m.y, rowOf m.z, ⟨0, 0, 0, 1⟩⟩

/-- The reflection across the plane through the origin with the unit normal `n`: the identity
minus twice the projection onto the normal. -/
def reflectionAcross (n : Vec3 R) : Linear R :=
  let row (unit : Vec3 R) (r : R) : Vec3 R := unit + -(n.map fun c => r * c * (1 + 1))
  ⟨row Vec3.unitX n.x, row Vec3.unitY n.y, row Vec3.unitZ n.z⟩

end Linear

namespace Homogeneous

def rowAt (r : Row R) (p : Vec3 R) : R := r.x * p.x + r.y * p.y + r.z * p.z + r.w

def onPoint (m : Homogeneous R) (p : Vec3 R) : Vec3 R :=
  let n := 0 + m.w.x * p.x + m.w.y * p.y + m.w.z * p.z + m.w.w
  let image : Vec3 R := ⟨rowAt m.x p, rowAt m.y p, rowAt m.z p⟩
  if n == 0 then image else image.div n

def shifting (v : Vec3 R) : Homogeneous R :=
  ⟨⟨1, 0, 0, v.x⟩, ⟨0, 1, 0, v.y⟩, ⟨0, 0, 1, v.z⟩, ⟨0, 0, 0, 1⟩⟩

def scaling (v : Vec3 R) : Homogeneous R :=
  ⟨⟨v.x, 0, 0, 0⟩, ⟨0, v.y, 0, 0⟩, ⟨0, 0, v.z, 0⟩, ⟨0, 0, 0, 1⟩⟩

end Homogeneous

end SolidScript.Space
