import SolidScript.Number.Fixed
import SolidScript.Number.Shortest
import SolidScript.Part.Basic

/-!
# The inspection form

A part with everything it holds but how it was composed, on one line, for developers.
-/

namespace SolidScript

def bracketed (left right : String) (texts : List String) : String :=
  left ++ ", ".intercalate texts ++ right

mutual

/-- A value with the word for its sort. -/
def Value.inspect : Value Float → String
  | .bool b => "Bool(" ++ (if b then "true" else "false") ++ ")"
  | .int n => "Int(" ++ Number.wholeLiteral n.toInt ++ ")"
  | .real r => "Float(" ++ Number.Layout.inspection.text r ++ ")"
  | .text s => "Str(" ++ Text.Inspected.text s ++ ")"
  | .ident name => "Ident(" ++ Text.Inspected.text name ++ ")"
  | .list items => "List(" ++ bracketed "[" "]" (Value.inspectAll items) ++ ")"

def Value.inspectAll : List (Value Float) → List String
  | [] => []
  | item :: rest => item.inspect :: Value.inspectAll rest

end

namespace Part

def inspectLabel : Option String → String
  | some label => "Some(" ++ Text.Inspected.text label ++ ")"
  | none => "None"

/-- A part from its head and the inspection forms of its parts. -/
def inspectRule (head : Head Float) (parts : List String) : String :=
  let named := head.named.entries.map fun entry =>
    Text.Inspected.text entry.1 ++ ": " ++ entry.2.inspect
  let fields := [
    "kind: " ++ head.kind.inspect,
    "label: " ++ inspectLabel head.label,
    "args: " ++ bracketed "[" "]" (Value.inspectAll head.args),
    "kwargs: " ++ bracketed "\x7b" "\x7d" named,
    "children: " ++ bracketed "[" "]" parts]
  "Node " ++ bracketed "\x7b " " \x7d" fields

def inspect (part : Part Float) : String := part.fold inspectRule

end Part

end SolidScript
