import SolidScript.Text.Inspected

/-!
# Kinds of parts

The modules of the script language that are modelled by name, the four glyphs that modify a part,
and any other module by its bare name.
-/

namespace SolidScript

/-- What a part is: a primitive, a motion, a group, a change of dimension, a wrapper, a glyph or
some other module. -/
inductive Kind where
  | cube | cylinder | sphere | polyhedron | mesh | circle | square | polygon | text
  | translate | rotate | scale | mirror
  | union | difference | intersection | hull
  | linearExtrude | rotateExtrude | offset | projection
  | color | render | condition
  | highlight | root | disable | background
  | raw (name : String)
  deriving DecidableEq, Repr

namespace Kind

/-- The name in the script: the module called, or the glyph. -/
def name : Kind → String
  | cube => "cube"
  | cylinder => "cylinder"
  | sphere => "sphere"
  | polyhedron => "polyhedron"
  | mesh => "import"
  | circle => "circle"
  | square => "square"
  | polygon => "polygon"
  | text => "text"
  | translate => "translate"
  | rotate => "rotate"
  | scale => "scale"
  | mirror => "mirror"
  | union => "union"
  | difference => "difference"
  | intersection => "intersection"
  | hull => "hull"
  | linearExtrude => "linear_extrude"
  | rotateExtrude => "rotate_extrude"
  | offset => "offset"
  | projection => "projection"
  | color => "color"
  | render => "render"
  | condition => "if"
  | highlight => "#"
  | root => "!"
  | disable => "*"
  | background => "%"
  | raw name => name

def modelled : List Kind :=
  [cube, cylinder, sphere, polyhedron, mesh, circle, square, polygon, text,
    translate, rotate, scale, mirror, union, difference, intersection, hull,
    linearExtrude, rotateExtrude, offset, projection, color, render, condition,
    highlight, root, disable, background]

/-- The kind with a name; a name that is not modelled is a raw module. -/
def ofName (name : String) : Kind :=
  (modelled.find? fun kind => kind.name == name).getD (raw name)

/-- Whether the kind is a glyph set before its part instead of a call. -/
def isGlyph : Kind → Bool
  | highlight | root | disable | background => true
  | _ => false

def isExtrusion : Kind → Bool
  | linearExtrude | rotateExtrude => true
  | _ => false

def isPlanar : Kind → Bool
  | circle | square | polygon | text => true
  | _ => false

/-- Whether a group of one kind may take in the parts of a group of another kind in its place. A
hull of hulls or unions is the hull of all their parts; other groups take in their own kind. -/
def absorbs (outer inner : Kind) : Bool :=
  match outer with
  | hull => inner == union || inner == hull
  | _ => outer == inner

/-- The word for the kind in the inspection form. -/
def inspect : Kind → String
  | cube => "Cube"
  | cylinder => "Cylinder"
  | sphere => "Sphere"
  | polyhedron => "Polyhedron"
  | mesh => "Import"
  | circle => "Circle"
  | square => "Square"
  | polygon => "Polygon"
  | text => "Text"
  | translate => "Translate"
  | rotate => "Rotate"
  | scale => "Scale"
  | mirror => "Mirror"
  | union => "Union"
  | difference => "Difference"
  | intersection => "Intersection"
  | hull => "Hull"
  | linearExtrude => "LinearExtrude"
  | rotateExtrude => "RotateExtrude"
  | offset => "Offset"
  | projection => "Projection"
  | color => "Color"
  | render => "Render"
  | condition => "If"
  | highlight => "Debug"
  | root => "Root"
  | disable => "Disable"
  | background => "Background"
  | raw name => "Raw(" ++ Text.Inspected.text name ++ ")"

end Kind

end SolidScript
