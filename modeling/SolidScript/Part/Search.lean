import SolidScript.Fault
import SolidScript.Part.Basic

/-!
# Finding parts and arguments

Labels are searched from the root down, later parts before earlier ones. The search keeps the
parts it has still to visit in a list, so that models may be of any depth.
-/

namespace SolidScript.Part

variable {R : Type}

/-- Parts in place of the part that holds them are smaller. -/
theorem sizeAll_reverse_append_lt (part : Part R) (rest : List (Part R)) :
    sizeAll (part.parts.reverse ++ rest) < sizeAll (part :: rest) := by
  rw [sizeAll_append, sizeAll_cons, size_eq part, sizeAll_perm part.parts.reverse_perm]
  omega

/-- The first part with the label, when the parts in the list are visited in order and the parts
of each right after it, the last of them first. -/
def findIn (label : String) : List (Part R) → Option (Part R)
  | [] => none
  | part :: rest =>
    if part.label == some label then some part else findIn label (part.parts.reverse ++ rest)
termination_by pending => sizeAll pending
decreasing_by
  rw [List.unattach_reverse, List.unattach_attach]
  exact sizeAll_reverse_append_lt part rest

/-- The first part in the model with the label, the model itself included; later parts are
visited before earlier ones. -/
def find (part : Part R) (label : String) : Except Fault (Part R) :=
  match findIn label [part] with
  | some found => .ok found
  | none => .error (.noSuchLabel label)

/-- The argument under a name, of this part or of the part it wraps: the search goes down while
there is exactly one part below. -/
def lookup? (name : String) : Part R → Option (Value R)
  | ⟨_, head, parts⟩ =>
    match head.named.get? name, parts with
    | some value, _ => some value
    | none, [only] => lookup? name only
    | none, _ => none

end SolidScript.Part
