import SolidScript.Part.Build

/-!
# Primitives and wrappers

Constructors for the parts that stand alone, with the defaults of their arguments, and for the
operations that wrap one part without moving it.
-/

namespace SolidScript

namespace Build

variable {R : Type}

def primitive (kind : Kind) (args : List (Value R)) (named : Named (Value R)) : Build (Part R) :=
  plain kind [] args named

section Sizes

variable [Zero R] [BEq R]

/-- An extent, or another one in place of zero. -/
def extentOr (fallback extent : R) : R := if extent == 0 then fallback else extent

/-- A box from the origin; a zero extent along Y or Z is that along X. -/
def cube (x y z : R) : Build (Part R) :=
  primitive .cube [.reals [x, extentOr x y, extentOr x z]] ∅

/-- A rectangle from the origin; a zero extent along Y is that along X. -/
def square (x y : R) : Build (Part R) := primitive .square [.reals [x, extentOr x y]] ∅

end Sizes

def sphere (r : R) : Build (Part R) := primitive .sphere [] (.ofList [("r", .real r)])

def circle (r : R) : Build (Part R) := primitive .circle [] (.ofList [("r", .real r)])

/-- A polygon through points, with paths over them if they are not in order. -/
def polygon (points : Value R) (paths : Option (Value R)) : Build (Part R) :=
  primitive .polygon [points] ((∅ : Named (Value R)).insert? "paths" paths)

def polyhedron (points faces : Value R) : Build (Part R) :=
  primitive .polyhedron [points] (.ofList [("faces", faces)])

def mesh (file : String) : Build (Part R) :=
  primitive .mesh [.text file] (.ofList [("convexity", .int 10)])

/-- Text of size 10 from the left end of its base line, unless arguments say otherwise. -/
def text (content : String) (named : Named (Value R)) : Build (Part R) :=
  let defaults : Named (Value R) :=
    .ofList [("size", .int 10), ("halign", .text "left"), ("valign", .text "baseline")]
  primitive .text [.text content] (defaults.insertAll named.entries)

end Build

namespace Part

variable {R : Type}

def offsetWith (part : Part R) (named : Named (Value R)) : Build (Part R) :=
  part.wrap .offset [] named

def offset (part : Part R) (r : R) : Build (Part R) := part.offsetWith (.ofList [("r", .real r)])

def offsetSharp (part : Part R) (delta : R) : Build (Part R) :=
  part.offsetWith (.ofList [("delta", .real delta)])

def projection (part : Part R) (named : Named (Value R)) : Build (Part R) :=
  part.wrap .projection [] named

def color (part : Part R) (value : Value R) : Build (Part R) := part.wrap .color [value] ∅

def render (part : Part R) : Build (Part R) := part.wrap .render [] ∅

/-- Shown in preview only. -/
def preview (part : Part R) : Build (Part R) := part.wrap .condition [.ident "$preview"] ∅

def highlight (part : Part R) : Build (Part R) := part.wrap .highlight [] ∅

def asRoot (part : Part R) : Build (Part R) := part.wrap .root [] ∅

def disable (part : Part R) : Build (Part R) := part.wrap .disable [] ∅

def background (part : Part R) : Build (Part R) := part.wrap .background [] ∅

end Part

end SolidScript
