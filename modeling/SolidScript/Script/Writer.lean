import SolidScript.Script.Text
import SolidScript.Session.Memo

/-!
# Writing with a memory

A writer keeps the text of every part it has built, or the fault it met, and counts how many
texts it built and how many it had already. It enters a part at most once, and stops at the first
fault: the parts behind it are not entered.
-/

namespace SolidScript

abbrev ScriptResult := Except Fault String

/-- Texts kept, and the counts of texts built and of texts found again. -/
structure Writer where
  texts : Memo ScriptResult
  built : Nat
  found : Nat

namespace Writer

/-- A writer that has counted nothing, on texts kept before. -/
def on (texts : Memo ScriptResult) : Writer := ⟨texts, 0, 0⟩

mutual

/-- The text of a part, from memory or built now. A text that was built counts once all parts
below are written; a fault is kept but not counted. -/
def write : Part Float → Writer → ScriptResult × Writer
  | part@⟨_, head, parts⟩, writer =>
    match writer.texts.get? part with
    | some result => (result, { writer with found := writer.found + 1 })
    | none =>
      match Script.opening head with
      | .error fault =>
        (.error fault, { writer with texts := writer.texts.fill part (.error fault) })
      | .ok before =>
        match writeAll parts writer with
        | (.error fault, after) =>
          (.error fault, { after with texts := after.texts.fill part (.error fault) })
        | (.ok inner, after) =>
          let text := before ++ Script.body inner
          (.ok text,
            { after with texts := after.texts.fill part (.ok text), built := after.built + 1 })

/-- The texts of parts in order, up to the first fault. -/
def writeAll : List (Part Float) → Writer → Except Fault (List String) × Writer
  | [], writer => (.ok [], writer)
  | part :: rest, writer =>
    match write part writer with
    | (.error fault, after) => (.error fault, after)
    | (.ok text, after) =>
      match writeAll rest after with
      | (.error fault, final) => (.error fault, final)
      | (.ok texts, final) => (.ok (text :: texts), final)

end

/-- The texts of parts in turn, each with the counts of texts built and found so far. A fault does
not stop the series. -/
def writeEach : List (Part Float) → Writer → List (ScriptResult × Nat × Nat) × Writer
  | [], writer => ([], writer)
  | part :: rest, writer =>
    let (result, after) := write part writer
    let (others, final) := writeEach rest after
    ((result, after.built, after.found) :: others, final)

end Writer

end SolidScript
