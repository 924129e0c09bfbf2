import SolidScript.Fault
import SolidScript.Named
import SolidScript.Number.Fixed
import SolidScript.Text.Quoted
import SolidScript.Text.Word
import SolidScript.Value.Basic

/-!
# Arguments as text

A call lists positional arguments in order and then named ones by name, with commas between them.
Names that begin with an underscore are internal and not written; the three names for how finely
curves are drawn are special variables and get a dollar sign. Numbers that are not finite and
bare names that are no identifiers cannot be written.
-/

namespace SolidScript

mutual

def Value.script : Value Float → Except Fault String
  | .bool b => .ok (if b then "true" else "false")
  | .int n => .ok (Number.wholeLiteral n.toInt)
  | .real r =>
    match Number.nonFinite? r with
    | some number => .error (.notFinite number)
    | none => .ok (Number.literal r)
  | .text s => .ok (Text.Quoted.text s)
  | .ident name => if Text.isIdentifier name then .ok name else .error (.notAnIdentifier name)
  | .list items => (Value.scriptAll items).map fun texts => "[" ++ ",".intercalate texts ++ "]"

/-- Values as texts, up to the first that cannot be written. -/
def Value.scriptAll : List (Value Float) → Except Fault (List String)
  | [] => .ok []
  | item :: rest =>
    match item.script with
    | .error fault => .error fault
    | .ok first => (Value.scriptAll rest).map (first :: ·)

end

namespace Script

/-- The names of the special variables for fragment angle, fragment size and fragment count. -/
def specialKeys : List String := ["fa", "fs", "fn"]

/-- A name as it stands in a call. -/
def keyText (key : String) : String := if specialKeys.contains key then "$" ++ key else key

def isInternal (key : String) : Bool := key.toList.head? == some '_'

def written (named : Named (Value Float)) : List (String × Value Float) :=
  named.entries.filter fun entry => !isInternal entry.1

def entryText (entry : String × Value Float) : Except Fault String :=
  entry.2.script.map fun text => keyText entry.1 ++ "=" ++ text

/-- The arguments of a call as text, without parentheses. -/
def arguments (args : List (Value Float)) (named : Named (Value Float)) :
    Except Fault String := do
  let positional ← Value.scriptAll args
  let byName ← Fault.collect ((written named).map entryText)
  return ",".intercalate (positional ++ byName)

end Script

end SolidScript
