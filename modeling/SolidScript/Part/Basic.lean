import SolidScript.Kind
import SolidScript.Named
import SolidScript.Value.Basic

/-!
# Parts

A model is a part: a primitive, or an operation on other parts. Parts are never changed once
built, and one part may stand in several places of a model. The serial number, given when a part
is built, tells it from every other part that was built, also from one that looks the same.

`Part.fold` computes a value of a part from those of its parts; `Part.induction` is the principle
that goes with it.
-/

namespace SolidScript

/-- How a part was composed. -/
inductive Role where
  /-- By no rule of its own. -/
  | plain
  /-- As a motion of the part below it, which can be applied to another part again. -/
  | motion
  /-- As a group that takes in groups of its kind. -/
  | group
  /-- As the group of a part and its moved copy, which can be made of another part again. -/
  | copies
  deriving DecidableEq, Repr

/-- Everything about a part but its serial number and its parts. -/
structure Head (R : Type) where
  kind : Kind
  args : List (Value R)
  named : Named (Value R)
  label : Option String
  role : Role

/-- A primitive or an operation on parts. -/
structure Part (R : Type) where
  serial : Nat
  head : Head R
  parts : List (Part R)

namespace Head

variable {R : Type}

/-- Until it is given another one, a part is labelled with its name; glyphs have no label. -/
def defaultLabel (kind : Kind) : Option String :=
  if kind.isGlyph then none else some kind.name

def ofKind (kind : Kind) (args : List (Value R)) (named : Named (Value R)) (role : Role) :
    Head R :=
  ⟨kind, args, named, defaultLabel kind, role⟩

/-- Whether the part was given no label of its own. -/
def hasDefaultLabel (head : Head R) : Bool :=
  match head.label with
  | some label => label == head.kind.name
  | none => true

end Head

namespace Part

variable {R α : Type}

/-! ## Recursion -/

mutual

/-- The value of a part, from its head and the values of its parts. -/
def fold (rule : Head R → List α → α) : Part R → α
  | ⟨_, head, parts⟩ => rule head (foldAll rule parts)

def foldAll (rule : Head R → List α → α) : List (Part R) → List α
  | [] => []
  | part :: rest => part.fold rule :: foldAll rule rest

end

theorem foldAll_eq_map (rule : Head R → List α → α) (parts : List (Part R)) :
    foldAll rule parts = parts.map (fold rule) := by
  induction parts with
  | nil => rfl
  | cons part rest ih => simp [foldAll, ih]

theorem fold_eq (rule : Head R → List α → α) (part : Part R) :
    part.fold rule = rule part.head (part.parts.map (fold rule)) := by
  cases part
  simp [fold, foldAll_eq_map]

/-- What holds of a part whenever it holds of its parts holds of every part. -/
theorem induction {motive : Part R → Prop}
    (step : ∀ part : Part R, (∀ inner ∈ part.parts, motive inner) → motive part)
    (part : Part R) : motive part := by
  refine step part fun inner hmem => ?_
  have : sizeOf inner < sizeOf part := by
    have hlt := List.sizeOf_lt_of_mem hmem
    cases part
    simp only [mk.sizeOf_spec] at hlt ⊢
    omega
  exact induction step inner
termination_by part

/-! ## Views -/

def kind (part : Part R) : Kind := part.head.kind

def name (part : Part R) : String := part.head.kind.name

def label (part : Part R) : Option String := part.head.label

/-- The number of parts in the full expansion, a shared part counted in each of its places. -/
def size (part : Part R) : Nat := part.fold fun _ sizes => sizes.foldr (· + ·) 1

def sizeAll (parts : List (Part R)) : Nat := (parts.map size).foldr (· + ·) 0

@[simp] theorem sizeAll_nil : sizeAll ([] : List (Part R)) = 0 := rfl

@[simp] theorem sizeAll_cons (part : Part R) (rest : List (Part R)) :
    sizeAll (part :: rest) = part.size + sizeAll rest := rfl

@[simp] theorem sizeAll_append (front rest : List (Part R)) :
    sizeAll (front ++ rest) = sizeAll front + sizeAll rest := by
  induction front with
  | nil => simp
  | cons part front ih => simp [ih, Nat.add_assoc]

theorem sizeAll_perm {front rest : List (Part R)} (h : front.Perm rest) :
    sizeAll front = sizeAll rest := by
  induction h with
  | nil => rfl
  | cons part _ ih => simp [ih]
  | swap first second rest => simp [Nat.add_left_comm]
  | trans _ _ ih₁ ih₂ => exact ih₁.trans ih₂

theorem size_eq (part : Part R) : part.size = sizeAll part.parts + 1 := by
  rw [size, fold_eq]
  change (part.parts.map size).foldr (· + ·) 1 = sizeAll part.parts + 1
  induction part.parts with
  | nil => rfl
  | cons inner rest ih => simp [ih, Nat.add_assoc]

/-- The levels below a part: none for a primitive, else one more than the deepest part has. -/
def depthRule (_ : Head R) (depths : List Nat) : Nat :=
  (depths.map (· + 1)).foldl max 0

@[inherit_doc depthRule] def depth (part : Part R) : Nat := part.fold depthRule

/-- Whether a part lies in the plane: an extrusion never does, a projection always does, a
primitive does if it is planar, and any other part does if all of its parts do. -/
def planarRule (head : Head R) (planar : List Bool) : Bool :=
  if head.kind.isExtrusion then false
  else if head.kind = .projection then true
  else if planar.isEmpty then head.kind.isPlanar
  else planar.all id

@[inherit_doc planarRule] def isPlanar (part : Part R) : Bool := part.fold planarRule

/-! ## Equality -/

mutual

/-- Parts are equal when they are the same part, or when kinds, labels and arguments are equal
and so are their parts in order. How they were composed does not count. -/
def beq [BEq R] : Part R → Part R → Bool
  | ⟨serial₁, head₁, parts₁⟩, ⟨serial₂, head₂, parts₂⟩ =>
    serial₁ == serial₂ ||
      (head₁.kind == head₂.kind && head₁.label == head₂.label && head₁.args == head₂.args &&
        head₁.named == head₂.named && beqAll parts₁ parts₂)

def beqAll [BEq R] : List (Part R) → List (Part R) → Bool
  | [], [] => true
  | part₁ :: rest₁, part₂ :: rest₂ => part₁.beq part₂ && beqAll rest₁ rest₂
  | _, _ => false

end

instance [BEq R] : BEq (Part R) := ⟨beq⟩

end Part

end SolidScript
