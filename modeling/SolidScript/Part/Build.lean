import SolidScript.Part.Basic

/-!
# Building parts

Building hands out serial numbers in order, so that every part built gets a new one.
-/

namespace SolidScript

/-- A construction of parts, on the next free serial number. -/
abbrev Build := StateM Nat

namespace Build

variable {R : Type}

def part (head : Head R) (parts : List (Part R)) : Build (Part R) :=
  fun next => (⟨next, head, parts⟩, next + 1)

/-- A new part with the label of its kind. -/
def ofKind (kind : Kind) (parts : List (Part R)) (args : List (Value R))
    (named : Named (Value R)) (role : Role) : Build (Part R) :=
  part (Head.ofKind kind args named role) parts

/-- A new part of any kind, composed by no rule of its own. -/
def plain (kind : Kind) (parts : List (Part R)) (args : List (Value R))
    (named : Named (Value R)) : Build (Part R) :=
  ofKind kind parts args named .plain

/-- A new part for any module or glyph by its name. -/
def raw (name : String) (parts : List (Part R)) (args : List (Value R))
    (named : Named (Value R)) : Build (Part R) :=
  plain (Kind.ofName name) parts args named

end Build

namespace Part

variable {R : Type}

/-- The same part with other parts below it. -/
def withParts (part : Part R) (parts : List (Part R)) : Build (Part R) :=
  Build.part part.head parts

def relabel (part : Part R) (label : String) : Build (Part R) :=
  Build.part { part.head with label := some label } part.parts

/-- A part of some kind around this one. -/
def wrap (part : Part R) (kind : Kind) (args : List (Value R)) (named : Named (Value R)) :
    Build (Part R) :=
  Build.plain kind [part] args named

end Part

end SolidScript
