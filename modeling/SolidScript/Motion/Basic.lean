import SolidScript.Space.Vec3

/-!
# Motions

A motion shifts, turns, scales or mirrors a part. A shift along an axis is by an amount or to the
center, which brings the part's own centroid to zero on that axis. A motion that doubles leaves
the part where it is, beside the moved one.
-/

namespace SolidScript

open Space

inductive Delta (R : Type) where
  | by (amount : R)
  /-- Bring the centroid to zero. -/
  | center
  deriving BEq, Repr

inductive Move (R : Type) where
  | shift (x y z : Delta R)
  /-- A turn by angles in degrees about X, Y and Z, with the pivot as fixed point. -/
  | turn (angles pivot : Vec3 R)
  | scale (factors : Vec3 R)
  /-- A reflection across the plane through the pivot with the normal. -/
  | mirror (normal pivot : Vec3 R)
  deriving BEq, Repr

/-- A move, and whether the part stays beside its moved copy. -/
structure Motion (R : Type) where
  move : Move R
  doubles : Bool
  deriving BEq, Repr

namespace Delta

variable {R : Type} [Neg R]

/-- The amount of a shift, given where the centroid is. -/
def amount (centroid : R) : Delta R → R
  | .by d => d
  | .center => -centroid

def isCenter : Delta R → Bool
  | .by _ => false
  | .center => true

end Delta

namespace Move

variable {R : Type}

def shiftBy (v : Vec3 R) : Move R := shift (.by v.x) (.by v.y) (.by v.z)

/-- Whether the move depends on where the centroid of the part is. -/
def centers : Move R → Bool
  | shift x y z => x.isCenter || y.isCenter || z.isCenter
  | _ => false

section Axes

variable [Zero R]

def shiftX (d : Delta R) : Move R := shift d (.by 0) (.by 0)

def shiftY (d : Delta R) : Move R := shift (.by 0) d (.by 0)

def shiftZ (d : Delta R) : Move R := shift (.by 0) (.by 0) d

def turnBy (angles : Vec3 R) : Move R := turn angles 0

def turnX (angle : R) : Move R := turnBy ⟨angle, 0, 0⟩

def turnY (angle : R) : Move R := turnBy ⟨0, angle, 0⟩

def turnZ (angle : R) : Move R := turnBy ⟨0, 0, angle⟩

def mirrorBy (normal : Vec3 R) : Move R := mirror normal 0

variable [One R]

/-- The reflection across the plane at a place on the X axis. -/
def mirrorX (place : R) : Move R := mirror Vec3.unitX ⟨place, 0, 0⟩

def mirrorY (place : R) : Move R := mirror Vec3.unitY ⟨0, place, 0⟩

def mirrorZ (place : R) : Move R := mirror Vec3.unitZ ⟨0, 0, place⟩

end Axes

/-- The move of a part alone. -/
def alone (move : Move R) : Motion R := ⟨move, false⟩

/-- The move of a copy, which leaves the part in its place. -/
def doubling (move : Move R) : Motion R := ⟨move, true⟩

end Move

end SolidScript
