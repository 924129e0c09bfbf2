import SolidScript.Fault
import SolidScript.Part.Primitive

/-!
# Cylinders and cones

A cylinder is built from settings in any order, of which the last one for each parameter counts.
Only parameters that were set become arguments, beside the height. `Cylinder.ofHead` reads the
dimensions back: each face has the first of its own radius, its own diameter, the common radius
and the common diameter that is given.
-/

namespace SolidScript

open Space

inductive CylinderSetting (R : Type) where
  | height (h : R)
  | radius (r : R)
  | diameter (d : R)
  | faceRadius (face : Face) (r : R)
  | faceDiameter (face : Face) (d : R)
  | facets (n : UInt32)
  | centered (b : Bool)

/-- The parameters of a cylinder as far as they are set. -/
structure CylinderPlan (R : Type) where
  height : R
  radius : Option R
  diameter : Option R
  bottomRadius : Option R
  topRadius : Option R
  bottomDiameter : Option R
  topDiameter : Option R
  facets : Option UInt32
  centered : Bool

namespace CylinderPlan

variable {R : Type}

def initial [One R] : CylinderPlan R := ⟨1, none, none, none, none, none, none, none, false⟩

def set (plan : CylinderPlan R) : CylinderSetting R → CylinderPlan R
  | .height h => { plan with height := h }
  | .radius r => { plan with radius := some r }
  | .diameter d => { plan with diameter := some d }
  | .faceRadius .bottom r => { plan with bottomRadius := some r }
  | .faceRadius .top r => { plan with topRadius := some r }
  | .faceDiameter .bottom d => { plan with bottomDiameter := some d }
  | .faceDiameter .top d => { plan with topDiameter := some d }
  | .facets n => { plan with facets := some n }
  | .centered b => { plan with centered := b }

def ofSettings [One R] (settings : List (CylinderSetting R)) : CylinderPlan R :=
  settings.foldl set initial

/-- The arguments: the height, and whatever else is set. -/
def named (plan : CylinderPlan R) : Named (Value R) :=
  (Named.ofList [("h", Value.real plan.height)])
    |>.insert? "r" (plan.radius.map .real)
    |>.insert? "d" (plan.diameter.map .real)
    |>.insert? "r1" (plan.bottomRadius.map .real)
    |>.insert? "r2" (plan.topRadius.map .real)
    |>.insert? "d1" (plan.bottomDiameter.map .real)
    |>.insert? "d2" (plan.topDiameter.map .real)
    |>.insert? "fn" (plan.facets.map fun n => .int (Int64.ofNat n.toNat))
    |>.insert? "center" (if plan.centered then some (.bool true) else none)

end CylinderPlan

/-- A cylinder or cone from settings. -/
def Build.cylinder {R : Type} [One R] (settings : List (CylinderSetting R)) : Build (Part R) :=
  primitive .cylinder [] (CylinderPlan.ofSettings settings).named

namespace Head

variable {R : Type} [Coordinate R]

/-- A named argument that has to be a number where it is given. -/
def number? (head : Head R) (name : String) : Except Fault (Option R) :=
  match head.named.get? name with
  | none => .ok none
  | some value =>
    match value.number? with
    | some r => .ok (some r)
    | none => .error (.notANumber head.kind name)

/-- A named argument that counts when it is true. -/
def isSet (head : Head R) (name : String) : Bool :=
  ((head.named.get? name).bind Value.flag?).getD false

def firstNumber? (head : Head R) : Option R := head.args.head?.bind Value.number?

end Head

structure Cylinder (R : Type) where
  height : R
  bottom : R
  top : R
  centered : Bool

namespace Cylinder

variable {R : Type} [One R] [Add R] [Mul R] [Div R] [Coordinate R]

/-- The first of several readings that gives a number, unless one before it has a fault. -/
def firstGiven (otherwise : Fault) : List (Except Fault (Option R)) → Except Fault R
  | [] => .error otherwise
  | .error fault :: _ => .error fault
  | .ok (some r) :: _ => .ok r
  | .ok none :: rest => firstGiven otherwise rest

/-- The radius of a face: its own radius, half its own diameter, the common radius, or half the
common diameter, whichever is given first. -/
def faceRadius (head : Head R) (face : Face) : Except Fault R :=
  let half : Option R → Option R := Option.map (· / (1 + 1))
  firstGiven (.noRadius face)
    [head.number? face.radiusKey, (head.number? face.diameterKey).map half,
      head.number? "r", (head.number? "d").map half]

/-- The dimensions of a cylinder. The height is one unless it is given by name or in first
place. -/
def ofHead (head : Head R) : Except Fault (Cylinder R) := do
  if head.kind ≠ .cylinder then throw (.notACylinder head.kind)
  let named ← head.number? "h"
  let height := named.getD (head.firstNumber?.getD 1)
  let bottom ← faceRadius head .bottom
  let top ← faceRadius head .top
  return ⟨height, bottom, top, head.isSet "center"⟩

def lesserRadius (c : Cylinder R) : R := Coordinate.least c.bottom c.top

def greaterRadius (c : Cylinder R) : R := Coordinate.greatest c.bottom c.top

def diameter (radius : R) : R := radius * (1 + 1)

end Cylinder

end SolidScript
