import SolidScript.Part.Build

/-!
# Groups

Unions, intersections and hulls take in the parts of unlabelled groups among their parts, to any
depth, in order. A group that was given a label stays whole, so that it can be found. `membersOf`
takes parts in by recursion over them, and `takeIn` by a list of pending parts.
-/

namespace SolidScript

namespace Part

variable {R : Type}

mutual

/-- What a part contributes to a group of a kind: itself, or the contributions of its parts if
the group takes it in. -/
def members (outer : Kind) : Part R → List (Part R)
  | ⟨serial, head, parts⟩ =>
    if outer.absorbs head.kind && head.hasDefaultLabel then membersOf outer parts
    else [⟨serial, head, parts⟩]

def membersOf (outer : Kind) : List (Part R) → List (Part R)
  | [] => []
  | part :: rest => part.members outer ++ membersOf outer rest

end

/-- Whether a group of a kind takes in the parts of a part in its place. -/
def isAbsorbedBy (outer : Kind) (part : Part R) : Bool :=
  outer.absorbs part.head.kind && part.head.hasDefaultLabel

/-- What pending parts contribute to a group, behind what was taken in so far: the first of them
stays, or its parts are pending in its place. -/
def takeIn (outer : Kind) (taken : List (Part R)) : List (Part R) → List (Part R)
  | [] => taken
  | part :: pending =>
    if part.isAbsorbedBy outer then takeIn outer taken (part.parts ++ pending)
    else takeIn outer (taken ++ [part]) pending
termination_by pending => sizeAll pending
decreasing_by
  all_goals simp only [sizeAll_append, sizeAll_cons, size_eq part]; omega

theorem membersOf_eq_flatMap (outer : Kind) (parts : List (Part R)) :
    membersOf outer parts = parts.flatMap (members outer) := by
  induction parts with
  | nil => rfl
  | cons part rest ih => simp [membersOf, ih]

theorem members_eq (outer : Kind) (part : Part R) :
    part.members outer =
      if part.isAbsorbedBy outer then part.parts.flatMap (members outer) else [part] := by
  cases part
  simp [members, isAbsorbedBy, membersOf_eq_flatMap]

end Part

namespace Build

variable {R : Type}

/-- A group of a kind over parts, with the groups among them taken in. -/
def groupAs (role : Role) (kind : Kind) (parts : List (Part R)) : Build (Part R) :=
  ofKind kind (Part.membersOf kind parts) [] ∅ role

def union (parts : List (Part R)) : Build (Part R) := groupAs .group .union parts

def intersection (parts : List (Part R)) : Build (Part R) := groupAs .group .intersection parts

def hull (parts : List (Part R)) : Build (Part R) := groupAs .group .hull parts

/-- The union of a part and its moved copy. -/
def copies (part moved : Part R) : Build (Part R) := groupAs .copies .union [part, moved]

def difference (first second : Part R) : Build (Part R) :=
  plain .difference [first, second] [] ∅

end Build

end SolidScript
