import SolidScript.Extent.Basic
import SolidScript.Motion.Basic
import SolidScript.Part.Group

/-!
# Moving parts

A motion wraps a part. A shift by nothing and a turn by nothing give the part itself. Turns and
reflections about a pivot bring the pivot to the origin first and back afterwards. `follow`
applies the motions stacked on one part to another part.
-/

namespace SolidScript

open Space

namespace Part

variable {R : Type} [Zero R] [Neg R] [BEq R]

/-- A motion around the part, which can be applied to another part again. -/
def moved (part : Part R) (kind : Kind) (args : List (Value R)) (named : Named (Value R)) :
    Build (Part R) :=
  Build.ofKind kind [part] args named .motion

/-- The part shifted; itself when the shift is zero. -/
def shiftBy (part : Part R) (v : Vec3 R) : Build (Part R) :=
  if v.isZero then pure part else part.moved .translate [.vector v] ∅

/-- A motion with the pivot in place of the origin. -/
def aboutPivot (part : Part R) (kind : Kind) (v pivot : Vec3 R) : Build (Part R) := do
  let shifted ← part.shiftBy (-pivot)
  let placed ← shifted.moved kind [.vector v] ∅
  placed.shiftBy pivot

/-- The part turned about a pivot; itself when all angles are zero. -/
def turnAbout (part : Part R) (angles pivot : Vec3 R) : Build (Part R) :=
  if angles.isZero then pure part else part.aboutPivot .rotate angles pivot

/-- The part scaled, also by factors of one. -/
def scaleBy (part : Part R) (factors : Vec3 R) : Build (Part R) :=
  part.moved .scale [.vector factors] ∅

def mirrorAbout (part : Part R) (normal pivot : Vec3 R) : Build (Part R) :=
  part.aboutPivot .mirror normal pivot

/-- The part after a move, given where its centroid is. -/
def moveFrom (part : Part R) (centroid : Vec3 R) : Move R → Build (Part R)
  | .shift x y z =>
    part.shiftBy ⟨x.amount centroid.x, y.amount centroid.y, z.amount centroid.z⟩
  | .turn angles pivot => part.turnAbout angles pivot
  | .scale factors => part.scaleBy factors
  | .mirror normal pivot => part.mirrorAbout normal pivot

/-- The part after a motion, given where its centroid is. A motion that doubles gives the union of
the part and its moved copy, unless the copy is the part itself. -/
def applyFrom (part : Part R) (centroid : Vec3 R) (motion : Motion R) : Build (Part R) := do
  let copy ← part.moveFrom centroid motion.move
  if motion.doubles && copy.serial != part.serial then Build.copies part copy else pure copy

mutual

/-- The motions of a path applied to a target: each motion, and each union of a part and its
moved copy, is built again around the target in place of what is at the bottom. -/
def followed (target : Part R) : Part R → Build (Part R)
  | path@⟨_, head, parts⟩ =>
    match head.role with
    | .motion => do path.withParts (← followedAll target parts)
    | .copies => do path.withParts (membersOf head.kind (← followedAll target parts))
    | .plain | .group => pure target

def followedAll (target : Part R) : List (Part R) → Build (List (Part R))
  | [] => pure []
  | path :: rest => do
    let first ← followed target path
    let others ← followedAll target rest
    pure (first :: others)

end

/-- The motions stacked on a path, applied to this part. -/
def follow (part path : Part R) : Build (Part R) := followed part path

/-! ## Extrusions -/

def liftWith (part : Part R) (named : Named (Value R)) : Build (Part R) :=
  part.moved .linearExtrude [] named

def lift (part : Part R) (height : R) : Build (Part R) :=
  part.liftWith (.ofList [("height", .real height)])

def sweep (part : Part R) (named : Named (Value R)) : Build (Part R) :=
  part.moved .rotateExtrude [] named

/-! ## Centering -/

variable [One R] [Add R] [Mul R] [Div R] [Coordinate R]

/-- Where the centroid is, as far as a move depends on it: a fault of the part counts only then. -/
def centroidFor (part : Part R) (move : Move R) : Except Fault (Vec3 R) :=
  if move.centers then part.extent.map (·.centroid) else .ok 0

def apply (part : Part R) (motion : Motion R) : ExceptT Fault Build (Part R) := do
  let centroid ← part.centroidFor motion.move
  part.applyFrom centroid motion

end Part

end SolidScript
