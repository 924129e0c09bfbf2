import SolidScript.Part.Cylinder
import SolidScript.Space.Box

/-!
# Extents

The extent of a part is a bounding box and a centroid, computed from its arguments and the
extents of its parts. It is a guide for placing parts, not an exact analysis: cubes and cylinders
know their dimensions, motions act by their matrix, extrusions, offsets and projections reshape
the box of their profile, other primitives are a point at the origin, and other operations bound
their parts.

A part with a fault has the first fault among those of its parts in order, or else its own.
-/

namespace SolidScript

open Space

variable {R : Type} [Zero R] [One R] [Add R] [Neg R] [Mul R] [Div R] [BEq R] [Coordinate R]

structure Extent (R : Type) where
  box : Box R
  centroid : Vec3 R
  deriving BEq, Repr

namespace Extent

def ofBox (box : Box R) : Extent R := ⟨box, box.center⟩

/-- The extent of a part of unknown dimensions: the origin. -/
def unknown : Extent R := ofBox 0

/-- The extents of parts as a group: the box around all of them, with its center. -/
def around : List (Extent R) → Extent R
  | [] => unknown
  | first :: rest => ofBox ((rest.map box).foldl Box.union first.box)

/-- The extents of parts as what an operation acts on: a single part as it is, several as a
group. -/
def inner : List (Extent R) → Extent R
  | [only] => only
  | extents => around extents

end Extent

/-- The matrix of a motion by the vector that is its argument. -/
def Kind.matrix? (kind : Kind) (v : Vec3 R) : Option (Homogeneous R) :=
  match kind with
  | .translate => some (Homogeneous.shifting v)
  | .rotate => some (Coordinate.turn v).homogeneous
  | .scale => some (Homogeneous.scaling v)
  | .mirror => some (Linear.reflection v).homogeneous
  | _ => none

namespace Head

/-- A cube reaches from the origin to its size, given in first place or by name and one by
default, or lies around the origin if centered. -/
def cubeExtent (head : Head R) : Except Fault (Extent R) := do
  let size ← match head.args.head? <|> head.named.get? "size" with
    | none => .ok ⟨1, 1, 1⟩
    | some value =>
      match value.vector? with
      | some size => .ok size
      | none => .error .cubeSize
  let box : Box R := ⟨0, size⟩
  return .ofBox (if head.isSet "center" then box.shift (-size).half else box)

/-- A cylinder stands on the plane, or across it if centered, as wide as its wider face. -/
def cylinderExtent (head : Head R) : Except Fault (Extent R) := do
  let c ← Cylinder.ofHead head
  let r := c.greaterRadius
  let box : Box R := ⟨⟨-r, -r, 0⟩, ⟨r, r, c.height⟩⟩
  return .ofBox (if c.centered then box.shift ⟨0, 0, -c.height / (1 + 1)⟩ else box)

/-- A motion acts on box and centroid by its matrix, and does nothing without a vector. -/
def movedExtent (head : Head R) (profile : Extent R) : Extent R :=
  match (head.args.head?.bind Value.vector?).bind head.kind.matrix? with
  | some m => ⟨profile.box.transform m, m.onPoint profile.centroid⟩
  | none => profile

/-- A profile lifted by a height, 100 by default, from the plane or across it if centered; a
scale of the top widens the footprint. -/
def liftedExtent (head : Head R) (profile : Extent R) : Except Fault (Extent R) := do
  let named ← head.number? "height"
  let height := named.getD (head.firstNumber?.getD (Coordinate.ofInt 100))
  let foot := profile.box
  let top := match (head.named.get? "scale").bind Value.vector? with
    | some s => Box.ofPoints [foot.min.scale ⟨s.x, s.y, 1⟩, foot.max.scale ⟨s.x, s.y, 1⟩]
    | none => foot
  let whole := foot.union top
  let ground := if head.isSet "center" then -height / (1 + 1) else 0
  return {
    box := ⟨⟨whole.min.x, whole.min.y, ground⟩, ⟨whole.max.x, whole.max.y, ground + height⟩⟩
    centroid := ⟨profile.centroid.x, profile.centroid.y, ground + height / (1 + 1)⟩ }

/-- A profile swept around the Z axis: as wide as its farthest point, as high as it is deep. -/
def sweptExtent (profile : Extent R) : Extent R :=
  let box := profile.box
  let r := Coordinate.greatest (Coordinate.magnitude box.min.x) (Coordinate.magnitude box.max.x)
  .ofBox ⟨⟨-r, -r, box.min.y⟩, ⟨r, r, box.max.y⟩⟩

/-- An outline moved outwards by a radius, or else a delta, or not at all. Moved inwards it shrinks
to its center at most. -/
def outlinedExtent (head : Head R) (profile : Extent R) : Except Fault (Extent R) := do
  let radius ← head.number? "r"
  let delta ← if radius.isSome then .ok none else head.number? "delta"
  let amount := (radius <|> delta).getD 0
  let box := profile.box
  let grow : Vec3 R := ⟨amount, amount, 0⟩
  let grown : Box R := ⟨box.min - grow, box.max + grow⟩
  let kept := if Coordinate.atMost 0 amount then grown
    else ⟨grown.min.least box.center, grown.max.greatest box.center⟩
  return ⟨kept, profile.centroid⟩

/-- The shadow of a box and of its centroid in the plane. -/
def shadowExtent (profile : Extent R) : Extent R :=
  let flat (v : Vec3 R) : Vec3 R := ⟨v.x, v.y, 0⟩
  ⟨⟨flat profile.box.min, flat profile.box.max⟩, flat profile.centroid⟩

/-- The extent of a part from its head and the extents of its parts. -/
def extentOf (head : Head R) (extents : List (Extent R)) : Except Fault (Extent R) :=
  let profile := Extent.inner extents
  match head.kind with
  | .translate | .rotate | .scale | .mirror => .ok (head.movedExtent profile)
  | .linearExtrude => head.liftedExtent profile
  | .rotateExtrude => .ok (sweptExtent profile)
  | .offset => head.outlinedExtent profile
  | .projection => .ok (shadowExtent profile)
  | _ => .ok (Extent.around extents)

end Head

namespace Part

/-- Cubes and cylinders have their own dimensions, whatever is below them. Every other part
depends on all of its parts. -/
def extentRule (head : Head R) (extents : List (Except Fault (Extent R))) :
    Except Fault (Extent R) :=
  match head.kind with
  | .cube => head.cubeExtent
  | .cylinder => head.cylinderExtent
  | _ => do head.extentOf (← Fault.collect extents)

def extent (part : Part R) : Except Fault (Extent R) := part.fold extentRule

end Part

end SolidScript
