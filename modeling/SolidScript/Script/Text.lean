import SolidScript.Part.Basic
import SolidScript.Script.Arguments

/-!
# Parts as text

A part is written as a call of its module, or as its glyph, followed by its parts: a semicolon
for none, the text of a single one, and the texts of several in braces. What cannot be written
makes the whole part unwritable; the fault reported is the first in the order of the text.
-/

namespace SolidScript

namespace Script

/-- What stands before the parts: the glyph, or the call with its arguments. -/
def opening (head : Head Float) : Except Fault String :=
  if head.kind.isGlyph then .ok head.kind.name
  else (arguments head.args head.named).map fun text => head.kind.name ++ "(" ++ text ++ ")"

/-- What stands for the parts, given their texts. -/
def body : List String → String
  | [] => ";"
  | [only] => only
  | texts => "\x7b" ++ String.join texts ++ "\x7d"

/-- The text of a part from its head and the texts of its parts. -/
def rule (head : Head Float) (texts : List (Except Fault String)) : Except Fault String := do
  let before ← opening head
  let inner ← Fault.collect texts
  return before ++ body inner

end Script

/-- The text of a part: the full expansion, a shared part written out in each of its places. -/
def Part.script (part : Part Float) : Except Fault String := part.fold Script.rule

end SolidScript
