import SolidScript.Space.Matrix

/-!
# Rotations

A rotation is a unit quaternion. `Quaternion.euler` composes the turns about the three axes,
given in degrees; the turn about X acts first.
-/

namespace SolidScript.Space

/-- The quaternion `w + i·I + j·J + k·K`. -/
structure Quaternion where
  i : Float
  j : Float
  k : Float
  w : Float
  deriving Repr

namespace Quaternion

def pi : Float := 3.14159265358979323846264338327950288

def radians (degrees : Float) : Float := degrees * (pi / 180.0)

/-- The turn about a unit axis by an angle in radians. -/
def aboutAxis (axis : Vec3 Float) (angle : Float) : Quaternion :=
  let s := Float.sin (angle / 2.0)
  ⟨axis.x * s, axis.y * s, axis.z * s, Float.cos (angle / 2.0)⟩

/-- The turn `b` followed by the turn `a`. -/
def compose (a b : Quaternion) : Quaternion where
  w := a.w * b.w - a.i * b.i - a.j * b.j - a.k * b.k
  i := a.w * b.i + a.i * b.w + a.j * b.k - a.k * b.j
  j := a.w * b.j - a.i * b.k + a.j * b.w + a.k * b.i
  k := a.w * b.k + a.i * b.j - a.j * b.i + a.k * b.w

/-- The turns about X, Y and Z by angles in degrees, in this order. -/
def euler (degrees : Vec3 Float) : Quaternion :=
  let aboutX := aboutAxis Vec3.unitX (radians degrees.x)
  let aboutY := aboutAxis Vec3.unitY (radians degrees.y)
  let aboutZ := aboutAxis Vec3.unitZ (radians degrees.z)
  (aboutZ.compose aboutY).compose aboutX

/-- The image of a vector: twice the cross product with the vector part, weighted, and once more
crossed, on top of the vector itself. -/
def rotate (q : Quaternion) (v : Vec3 Float) : Vec3 Float :=
  let axis : Vec3 Float := ⟨q.i, q.j, q.k⟩
  let t := (axis.cross v).times 2.0
  t.times q.w + axis.cross t + v

def linear (q : Quaternion) : Linear Float :=
  let ww := q.w * q.w
  let ii := q.i * q.i
  let jj := q.j * q.j
  let kk := q.k * q.k
  let ij := q.i * q.j * 2.0
  let wk := q.w * q.k * 2.0
  let wj := q.w * q.j * 2.0
  let ik := q.i * q.k * 2.0
  let jk := q.j * q.k * 2.0
  let wi := q.w * q.i * 2.0
  ⟨⟨ww + ii - jj - kk, ij - wk, wj + ik⟩,
    ⟨wk + ij, ww - ii + jj - kk, jk - wi⟩,
    ⟨ik - wj, wi + jk, ww - ii - jj + kk⟩⟩

end Quaternion

end SolidScript.Space
