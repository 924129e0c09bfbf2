import SolidScript.Kind
import SolidScript.Number.Binary

/-!
# Faults

Why a part cannot be measured, written or found, and the text that reports it.
-/

namespace SolidScript

inductive Face where
  | bottom | top
  deriving DecidableEq, Repr

namespace Face

def name : Face → String
  | bottom => "bottom"
  | top => "top"

/-- The argument with the radius of this face alone. -/
def radiusKey : Face → String
  | bottom => "r1"
  | top => "r2"

/-- The argument with the diameter of this face alone. -/
def diameterKey : Face → String
  | bottom => "d1"
  | top => "d2"

end Face

/-- What is wrong with a part. The first four are faults of its dimensions, the next two of its
arguments as text, the last one of a search. -/
inductive Fault where
  /-- The size of a cube is neither a number nor a point. -/
  | cubeSize
  /-- An argument that has to be a number is none. -/
  | notANumber (kind : Kind) (key : String)
  /-- A face of a cylinder has no radius. -/
  | noRadius (face : Face)
  /-- Dimensions of a cylinder are asked of another part. -/
  | notACylinder (kind : Kind)
  | notFinite (number : Number.NonFinite)
  | notAnIdentifier (name : String)
  | noSuchLabel (label : String)
  deriving DecidableEq, Repr

namespace Fault

private def dimensions (kind : Kind) (message : String) : String :=
  "invalid `" ++ kind.name ++ "` parameters: " ++ message

private def unwritable (value sort : String) : String :=
  "cannot serialize value " ++ value ++ " of type " ++ sort

def message : Fault → String
  | cubeSize => dimensions .cube "size must be a number or [x, y, z]"
  | notANumber kind key => dimensions kind ("`" ++ key ++ "` must be a number")
  | noRadius face =>
    dimensions .cylinder (face.name ++ " radius undefined: none of " ++ face.radiusKey ++ ", " ++
      face.diameterKey ++ ", r, d given")
  | notACylinder kind => dimensions kind "not a cylinder"
  | notFinite number => unwritable ("Float(" ++ number.text ++ ")") "float"
  | notAnIdentifier name => unwritable ("Ident(" ++ Text.Inspected.text name ++ ")") "identifier"
  | noSuchLabel label => "no node labelled `" ++ label ++ "`"

/-- All results in order, or the first fault among them. -/
def collect {α : Type} : List (Except Fault α) → Except Fault (List α)
  | [] => .ok []
  | .error fault :: _ => .error fault
  | .ok a :: rest => (collect rest).map (a :: ·)

end Fault

end SolidScript
