import SolidScript.Space.Coordinate

/-!
# Bounding boxes

Boxes with sides along the axes, by their lower and upper corners. `Box.ofPoints` is the smallest
box that holds the given points, and the image of a box under a matrix is the smallest box that
holds the images of its eight corners.
-/

namespace SolidScript.Space

/-- A box with sides along the axes. -/
structure Box (R : Type) where
  min : Vec3 R
  max : Vec3 R
  deriving BEq, DecidableEq, Repr

namespace Box

variable {R : Type} [Zero R] [One R] [Add R] [Neg R] [Mul R] [Div R] [BEq R] [Coordinate R]

instance : Zero (Box R) := ⟨⟨0, 0⟩⟩

def ofPoint (p : Vec3 R) : Box R := ⟨p.map Coordinate.lowerBound, p.map Coordinate.upperBound⟩

def extend (b : Box R) (p : Vec3 R) : Box R := ⟨b.min.least p, b.max.greatest p⟩

/-- The smallest box that holds every point; the point box at the origin when there are none. -/
def ofPoints : List (Vec3 R) → Box R
  | [] => 0
  | p :: rest => rest.foldl extend (ofPoint p)

def union (a b : Box R) : Box R := ⟨a.min.least b.min, a.max.greatest b.max⟩

def center (b : Box R) : Vec3 R := (b.min + b.max).half

def size (b : Box R) : Vec3 R := b.max - b.min

def volume (b : Box R) : R := b.size.x * b.size.y * b.size.z

/-- Whether a point lies in the box, its faces included. -/
def contains (b : Box R) (p : Vec3 R) : Bool :=
  let within (low high c : R) := Coordinate.atMost low c && Coordinate.atMost c high
  within b.min.x b.max.x p.x && within b.min.y b.max.y p.y && within b.min.z b.max.z p.z

def shift (b : Box R) (offset : Vec3 R) : Box R := ⟨b.min + offset, b.max + offset⟩

/-- The eight corners: the lower one first and the upper one last, X changing fastest. -/
def corners (b : Box R) : List (Vec3 R) :=
  [b.min.z, b.max.z].flatMap fun z =>
    [b.min.y, b.max.y].flatMap fun y => [b.min.x, b.max.x].map fun x => ⟨x, y, z⟩

/-- The smallest box around the images of the corners. -/
def transform (b : Box R) (m : Homogeneous R) : Box R := ofPoints (b.corners.map m.onPoint)

/-- Whether two boxes differ by less than a tolerance in every coordinate. -/
def isNear (tolerance : R) (a b : Box R) : Bool :=
  Vec3.isNear tolerance a.min b.min && Vec3.isNear tolerance a.max b.max

end Box

end SolidScript.Space
