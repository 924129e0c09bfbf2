import SolidScript.Number.Fixed
import SolidScript.Script.Text

/-!
# Settings of a script

A script begins with a line for each setting of how finely curves are drawn, and ends with a line
feed after the text of the model.
-/

namespace SolidScript

/-- How finely curves are drawn, as far as it is set. -/
structure Settings where
  /-- The least angle of a fragment, in degrees. -/
  fragmentAngle : Option Float
  fragmentSize : Option Float
  /-- The number of fragments in place of the other two. -/
  fragmentCount : Option UInt32
  deriving BEq

namespace Settings

/-- The settings where nothing else is said. -/
def standard : Settings := ⟨some 3.0, some 0.5, none⟩

def setting (name : String) (value : Option String) : String :=
  match value with
  | some text => "$" ++ name ++ "=" ++ text ++ ";\n"
  | none => ""

def countText (count : UInt32) : String := Number.wholeLiteral count.toNat

/-- The lines before the model. -/
def preamble (settings : Settings) : String :=
  setting "fa" (settings.fragmentAngle.map Number.literal) ++
    setting "fs" (settings.fragmentSize.map Number.literal) ++
    setting "fn" (settings.fragmentCount.map countText)

/-- A whole script around the text of a model. -/
def around (settings : Settings) (model : String) : String :=
  settings.preamble ++ model ++ "\n"

def render (settings : Settings) (part : Part Float) : Except Fault String :=
  part.script.map settings.around

/-- A text in a space of fixed size in bytes, with blanks up to its end; nothing if it does not
fit. -/
def fitted (size : Nat) (text : String) : Option String :=
  if text.utf8ByteSize ≤ size then
    some (text ++ String.ofList (List.replicate (size - text.utf8ByteSize) ' '))
  else none

end Settings

end SolidScript
