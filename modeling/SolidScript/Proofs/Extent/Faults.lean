import Mathlib.Data.List.Basic
import SolidScript.Extent.Basic
import SolidScript.Proofs.Fault.Collected

/-!
# Why a part has no extent

A part has no extent exactly if a part that is visible in it has a fault of its own: arguments that
give it no dimensions. Nothing is visible below a cube or a cylinder, which have dimensions whatever
is below them. Of several faults that of the first part counts, in the order that lists parts after
those below them, from left to right (`Part.of?_extent`, `Part.faultsFirst_of_of?`).
-/

namespace SolidScript

open Space

/-! ## Values without dimensions -/

namespace Value

def IsPoint (value : Value Float) : Prop :=
  value.number?.isSome ∨
    ∃ items, value = .list items ∧ (items.length = 2 ∨ items.length = 3) ∧
      ∀ item ∈ items, item.number?.isSome

theorem isPoint_list_iff {items : List (Value Float)} :
    (list items).IsPoint ↔
      (items.length = 2 ∨ items.length = 3) ∧ ∀ item ∈ items, item.number?.isSome := by
  constructor
  · rintro (h | ⟨_, hitems, h⟩)
    · cases h
    · cases hitems
      exact h
  · exact fun h => .inr ⟨items, rfl, h⟩

theorem vector?_isSome_iff {value : Value Float} : value.vector?.isSome ↔ value.IsPoint := by
  unfold vector?
  split
  · rename_i x y z
    rw [isPoint_list_iff]
    cases hx : x.number? <;> cases hy : y.number? <;> cases hz : z.number? <;> simp [*]
  · rename_i x y
    rw [isPoint_list_iff]
    cases hx : x.number? <;> cases hy : y.number? <;> simp [*]
  · rename_i htriple hpair
    rw [Option.isSome_map]
    refine ⟨.inl, ?_⟩
    rintro (h | ⟨items, rfl, hlength, -⟩)
    · exact h
    · rcases hlength with h | h
      · obtain ⟨x, y, rfl⟩ := List.length_eq_two.mp h
        exact absurd rfl (hpair x y)
      · obtain ⟨x, y, z, rfl⟩ := List.length_eq_three.mp h
        exact absurd rfl (htriple x y z)

end Value

/-! ## Faults of a head -/

/-- A cube or a cylinder, which has dimensions of its own. -/
def Kind.isBlock (kind : Kind) : Bool := kind = .cube ∨ kind = .cylinder

namespace Head

/-- What is wrong with the dimensions that a part is given: the size of a cube is no point, the
dimensions of a cylinder cannot be resolved, the height of a lift is no number, or the radius of an
outline is none, or else its delta. -/
inductive HasFault (head : Head Float) : Fault → Prop where
  | size {value : Value Float} : head.kind = .cube →
    (head.args.head? <|> head.named.get? "size") = some value → ¬value.IsPoint →
    HasFault head .cubeSize
  | cylinder {fault : Fault} : head.kind = .cylinder → Cylinder.ofHead head = .error fault →
    HasFault head fault
  | height {value : Value Float} : head.kind = .linearExtrude →
    head.named.get? "height" = some value → value.number? = none →
    HasFault head (.notANumber .linearExtrude "height")
  | radius {value : Value Float} : head.kind = .offset →
    head.named.get? "r" = some value → value.number? = none →
    HasFault head (.notANumber .offset "r")
  | delta {value : Value Float} : head.kind = .offset → head.named.get? "r" = none →
    head.named.get? "delta" = some value → value.number? = none →
    HasFault head (.notANumber .offset "delta")

def fault? (head : Head Float) : Option Fault :=
  match head.kind with
  | .cube => Fault.of? head.cubeExtent
  | .cylinder => Fault.of? (Cylinder.ofHead head)
  | .linearExtrude => Fault.of? (head.number? "height")
  | .offset => (Fault.of? (head.number? "r")).or
      (if (head.named.get? "r").isSome then none else Fault.of? (head.number? "delta"))
  | _ => none

variable {head : Head Float} {fault : Fault}

theorem of?_number?_eq_some {key : String} :
    Fault.of? (head.number? key) = some fault ↔
      ∃ value, head.named.get? key = some value ∧ value.number? = none ∧
        .notANumber head.kind key = fault := by
  have hread : Fault.of? (head.number? key) = (head.named.get? key).bind fun value =>
      if value.number?.isSome then none else some (.notANumber head.kind key) := by
    unfold number?
    cases head.named.get? key with
    | none => rfl
    | some value => cases hvalue : value.number? <;> simp only [hvalue, Option.bind_some] <;> rfl
  simp [hread, Option.bind_eq_some_iff]

theorem of?_cubeExtent_eq_some :
    Fault.of? head.cubeExtent = some fault ↔
      ∃ value, (head.args.head? <|> head.named.get? "size") = some value ∧ ¬value.IsPoint ∧
        .cubeSize = fault := by
  have hread : Fault.of? head.cubeExtent = (head.args.head? <|> head.named.get? "size").bind
      fun value => if value.vector?.isSome then none else some .cubeSize := by
    unfold cubeExtent
    cases head.args.head? <|> head.named.get? "size" with
    | none => rfl
    | some value => cases hvalue : value.vector? <;> simp only [hvalue, Option.bind_some] <;> rfl
  simp [hread, Option.bind_eq_some_iff, Value.vector?_isSome_iff]

theorem fault?_eq_some_iff : head.fault? = some fault ↔ head.HasFault fault := by
  constructor
  · intro h
    unfold fault? at h
    split at h
    case h_1 hkind =>
      obtain ⟨value, hvalue, hpoint, rfl⟩ := of?_cubeExtent_eq_some.mp h
      exact .size hkind hvalue hpoint
    case h_2 hkind => exact .cylinder hkind (Fault.of?_eq_some.mp h)
    case h_3 hkind =>
      obtain ⟨value, hvalue, hnumber, rfl⟩ := of?_number?_eq_some.mp h
      rw [hkind]
      exact .height hkind hvalue hnumber
    case h_4 hkind =>
      rcases Option.or_eq_some_iff.mp h with h | ⟨hnone, h⟩
      · obtain ⟨value, hvalue, hnumber, rfl⟩ := of?_number?_eq_some.mp h
        rw [hkind]
        exact .radius hkind hvalue hnumber
      · split at h
        · cases h
        · rename_i hr
          obtain ⟨value, hvalue, hnumber, rfl⟩ := of?_number?_eq_some.mp h
          rw [hkind]
          exact .delta hkind (Option.not_isSome_iff_eq_none.mp hr) hvalue hnumber
    case h_5 => cases h
  · intro h
    unfold fault?
    cases h with
    | size hkind hvalue hpoint =>
      rw [hkind]
      exact of?_cubeExtent_eq_some.mpr ⟨_, hvalue, hpoint, rfl⟩
    | cylinder hkind hfault =>
      rw [hkind]
      exact Fault.of?_eq_some.mpr hfault
    | height hkind hvalue hnumber =>
      rw [hkind]
      exact of?_number?_eq_some.mpr ⟨_, hvalue, hnumber, by rw [hkind]⟩
    | radius hkind hvalue hnumber =>
      rw [hkind]
      exact Option.or_eq_some_iff.mpr <| .inl <|
        of?_number?_eq_some.mpr ⟨_, hvalue, hnumber, by rw [hkind]⟩
    | delta hkind hr hvalue hnumber =>
      have hnone : Fault.of? (head.number? "r") = none := by
        rw [number?, hr]
        rfl
      rw [hkind]
      refine Option.or_eq_some_iff.mpr (.inr ⟨hnone, ?_⟩)
      rw [hr]
      exact of?_number?_eq_some.mpr ⟨_, hvalue, hnumber, by rw [hkind]⟩

theorem of?_liftedExtent (head : Head Float) (profile : Extent Float) :
    Fault.of? (head.liftedExtent profile) = Fault.of? (head.number? "height") := by
  unfold liftedExtent
  cases head.number? "height" <;> rfl

/-- The delta of an outline is not read where it has a radius. -/
theorem of?_outlinedExtent (head : Head Float) (profile : Extent Float) :
    Fault.of? (head.outlinedExtent profile) = (Fault.of? (head.number? "r")).or
      (if (head.named.get? "r").isSome then none else Fault.of? (head.number? "delta")) := by
  unfold outlinedExtent
  cases hr : head.named.get? "r" with
  | none =>
    have hradius : head.number? "r" = .ok none := by rw [number?, hr]
    rw [hradius]
    cases head.number? "delta" <;> rfl
  | some value =>
    cases hvalue : value.number? with
    | none =>
      have hradius : head.number? "r" = .error (.notANumber head.kind "r") := by
        simp only [number?, hr, hvalue]
      rw [hradius]
      rfl
    | some r =>
      have hradius : head.number? "r" = .ok (some r) := by simp only [number?, hr, hvalue]
      rw [hradius]
      rfl

theorem of?_extentOf (hblock : head.kind.isBlock = false) (extents : List (Extent Float)) :
    Fault.of? (head.extentOf extents) = head.fault? := by
  unfold extentOf fault?
  cases hkind : head.kind
  case cube =>
    rw [hkind] at hblock
    cases hblock
  case cylinder =>
    rw [hkind] at hblock
    cases hblock
  case linearExtrude => exact of?_liftedExtent head _
  case offset => exact of?_outlinedExtent head _
  all_goals rfl

/-- Apart from blocks, a part has the first fault among its parts, or else its own. -/
theorem of?_extentRule (hblock : head.kind.isBlock = false)
    (results : List (Except Fault (Extent Float))) :
    Fault.of? (Part.extentRule head results) =
      (Fault.of? (Fault.collect results)).or head.fault? := by
  unfold Part.extentRule
  split
  case h_1 hkind =>
    rw [hkind] at hblock
    cases hblock
  case h_2 hkind =>
    rw [hkind] at hblock
    cases hblock
  case h_3 =>
    cases Fault.collect results with
    | error fault => rfl
    | ok extents => exact of?_extentOf hblock extents

theorem of?_blockExtent (hblock : head.kind.isBlock)
    (results : List (Except Fault (Extent Float))) :
    Fault.of? (Part.extentRule head results) = head.fault? := by
  unfold Part.extentRule fault?
  rcases of_decide_eq_true hblock with hkind | hkind
  · rw [hkind]
  · rw [hkind]
    unfold cylinderExtent
    cases Cylinder.ofHead head <;> rfl

end Head

/-! ## Parts that are visible -/

namespace Part

variable {R : Type}

/-- A part is visible in another one if none of those around it is a cube or a cylinder. -/
inductive Visible (inner : Part R) : Part R → Prop where
  | self : Visible inner inner
  | inside {part outer : Part R} : outer.head.kind ≠ .cube → outer.head.kind ≠ .cylinder →
    part ∈ outer.parts → Visible inner part → Visible inner outer

mutual

/-- The visible parts, each after those below it, from left to right. -/
def visible : Part R → List (Part R)
  | ⟨serial, head, parts⟩ =>
    (if head.kind.isBlock then [] else visibleAll parts) ++ [⟨serial, head, parts⟩]

def visibleAll : List (Part R) → List (Part R)
  | [] => []
  | part :: rest => part.visible ++ visibleAll rest

end

theorem visible_eq (part : Part R) :
    part.visible =
      (if part.head.kind.isBlock then [] else part.parts.flatMap visible) ++ [part] := by
  have hall (parts : List (Part R)) : visibleAll parts = parts.flatMap visible := by
    induction parts with
    | nil => rfl
    | cons part rest ih => rw [visibleAll, ih, List.flatMap_cons]
  cases part
  rw [visible, hall]

theorem mem_visible_iff {inner part : Part R} : inner ∈ part.visible ↔ Visible inner part := by
  induction part using Part.induction with
  | step part ih =>
    rw [visible_eq, List.mem_append, List.mem_singleton]
    constructor
    · rintro (h | rfl)
      · split at h
        · cases h
        · rename_i hblock
          obtain ⟨child, hchild, hmem⟩ := List.mem_flatMap.mp h
          have hkind := of_decide_eq_false (Bool.not_eq_true _ ▸ hblock)
          exact .inside (fun hcube => hkind (.inl hcube)) (fun hcylinder => hkind (.inr hcylinder))
            hchild ((ih child hchild).mp hmem)
      · exact .self
    · intro h
      cases h with
      | self => exact .inr rfl
      | inside hcube hcylinder hchild h =>
        have hblock : ¬part.head.kind.isBlock := fun hblock =>
          (of_decide_eq_true hblock).elim hcube hcylinder
        rw [if_neg hblock]
        exact .inl (List.mem_flatMap.mpr ⟨_, hchild, (ih _ hchild).mpr h⟩)

/-! ## Faults of a part -/

/-- The fault of a part is that of the first visible part that has one by itself. -/
theorem of?_extent (part : Part Float) :
    Fault.of? part.extent = part.visible.findSome? fun inner => inner.head.fault? := by
  induction part using Part.induction with
  | step part ih =>
    rw [extent, fold_eq, visible_eq]
    by_cases hblock : part.head.kind.isBlock
    · rw [if_pos hblock, List.nil_append, List.findSome?_singleton]
      exact Head.of?_blockExtent hblock _
    · rw [if_neg hblock, List.findSome?_append, List.findSome?_singleton,
        ← Fault.of?_collect_flatMap ih]
      exact Head.of?_extentRule (Bool.eq_false_iff.mpr hblock) _

/-- A part is the first of the visible ones, each listed after those below it, that has a fault of
its own, and this is the fault. -/
def FirstFault (part inner : Part Float) (fault : Fault) : Prop :=
  ∃ before after, part.visible = before ++ inner :: after ∧
    (∀ other ∈ before, ∀ fault, ¬other.head.HasFault fault) ∧ inner.head.HasFault fault

/-- A result about a part fails exactly if a visible part has a fault of its own, and with the first
such fault. -/
structure FaultsFirst {α : Type} (part : Part Float) (result : Except Fault α) : Prop where
  exists_iff : (∃ fault, result = .error fault) ↔
    ∃ inner, Visible inner part ∧ ∃ fault, inner.head.HasFault fault
  eq_error_iff : ∀ fault, result = .error fault ↔ ∃ inner, part.FirstFault inner fault

theorem faultsFirst_of_of? {α : Type} {part : Part Float} {result : Except Fault α}
    (h : Fault.of? result = Fault.of? part.extent) : part.FaultsFirst result := by
  rw [of?_extent] at h
  constructor
  · simp only [← Fault.of?_eq_some, h, ← mem_visible_iff, ← Head.fault?_eq_some_iff,
      ← Option.isSome_iff_exists, List.findSome?_isSome_iff]
  · intro fault
    have hnone : ∀ head : Head Float, head.fault? = none ↔ ∀ fault, ¬head.HasFault fault := by
      intro head
      simp only [← Head.fault?_eq_some_iff, Option.eq_none_iff_forall_ne_some, ne_eq]
    rw [← Fault.of?_eq_some, h, List.findSome?_eq_some_iff]
    simp only [hnone, Head.fault?_eq_some_iff]
    constructor
    · rintro ⟨before, inner, after, hvisible, hfault, hbefore⟩
      exact ⟨inner, before, after, hvisible, hbefore, hfault⟩
    · rintro ⟨inner, before, after, hvisible, hbefore, hfault⟩
      exact ⟨before, inner, after, hvisible, hfault, hbefore⟩

end Part

end SolidScript
