import SolidScript.Extent.Basic
import SolidScript.Proofs.Fault.Collected
import SolidScript.Proofs.Group.Solid
import SolidScript.Proofs.Space.Smallest

/-!
# The extent of what a group takes in

A group is measured by the box around its parts, or by the first fault among them. It makes no
difference to either that parts were taken in from other groups, as long as none of these was empty
(`Build.measured_groupAs`): boxes can be joined in portions, and the parts stay in order. An empty
group is a point at the origin and does not lie in the plane, and taking it in loses both.
-/

namespace SolidScript

open Space SolidScript.Part

/-! ## Groups in the plane -/

namespace Kind

theorem mem_operations_iff {kind : Kind} :
    kind ∈ operations ↔ kind = union ∨ kind = intersection ∨ kind = hull := by
  simp [operations]

/-- The kinds with a rule of their own for their extent. All others bound their parts. -/
def ruled : List Kind :=
  [cube, cylinder, translate, rotate, scale, mirror, linearExtrude, rotateExtrude, offset,
    projection]

theorem not_mem_ruled_of_mem_operations {kind : Kind} (h : kind ∈ operations) : kind ∉ ruled := by
  rcases mem_operations_iff.mp h with rfl | rfl | rfl <;> decide

theorem mem_operations_of_absorbs {outer inner : Kind} (houter : outer ∈ operations)
    (h : outer.absorbs inner) : inner ∈ operations := by
  rw [mem_operations_iff] at houter ⊢
  rcases houter with rfl | rfl | rfl <;> simp [absorbs] at h <;> tauto

end Kind

variable {R : Type} {outer : Kind} {part : Part R} {parts : List (Part R)}

namespace Part

theorem isPlanar_of_operation (h : part.head.kind ∈ Kind.operations) :
    part.isPlanar = (!part.parts.isEmpty && part.parts.all isPlanar) := by
  have hkind : part.head.kind.isExtrusion = false ∧ part.head.kind ≠ .projection ∧
      part.head.kind.isPlanar = false := by
    rcases Kind.mem_operations_iff.mp h with h | h | h <;> rw [h] <;> decide
  rw [isPlanar, fold_eq, planarRule, hkind.1, if_neg Bool.false_ne_true, if_neg hkind.2.1,
    hkind.2.2, List.isEmpty_map, List.all_map, Function.id_comp]
  cases part.parts <;> rfl

theorem all_isPlanar_membersOf
    (h : ∀ part ∈ parts, (part.members outer).all isPlanar = part.isPlanar) :
    (membersOf outer parts).all isPlanar = parts.all isPlanar := by
  induction parts with
  | nil => rfl
  | cons part rest ih =>
    obtain ⟨hpart, hrest⟩ := List.forall_mem_cons.mp h
    rw [membersOf, List.all_append, List.all_cons, hpart, ih hrest]

theorem all_isPlanar_members (houter : outer ∈ Kind.operations) (part : Part R)
    (h : ∀ gone, Dissolved outer gone part → gone.parts ≠ []) :
    (part.members outer).all isPlanar = part.isPlanar := by
  induction part using absorbing_induction outer with
  | kept part hkept =>
    rw [members_of_not_absorbed hkept, List.all_cons, List.all_nil, Bool.and_true]
  | absorbed part habsorbed ih =>
    obtain ⟨hne, hbelow⟩ := forall_dissolved_iff.mp h habsorbed
    have hkind := Kind.mem_operations_of_absorbs houter (isAbsorbedBy_iff.mp habsorbed).1
    rw [members_of_absorbed habsorbed, isPlanar_of_operation hkind,
      all_isPlanar_membersOf fun inner hmem => ih inner hmem (hbelow inner hmem),
      List.isEmpty_eq_false_iff.mpr hne, Bool.not_false, Bool.true_and]

end Part

/-! ## Boxes in portions -/

namespace Extent

/-- The box around all of some extents, if there are any. -/
def bound? [Coordinate R] (extents : List (Extent R)) : Option (Box R) :=
  (extents.map fun extent => some extent.box).foldl (Option.merge Box.union) none

theorem bound?_cons [Coordinate R] (first : Extent R) (rest : List (Extent R)) :
    bound? (first :: rest) = some ((rest.map box).foldl Box.union first.box) := by
  have hfold (box : Box R) :
      (rest.map fun extent => some extent.box).foldl (Option.merge Box.union) (some box) =
        some ((rest.map Extent.box).foldl Box.union box) := by
    induction rest generalizing box with
    | nil => rfl
    | cons next rest ih => exact ih _
  exact hfold first.box

theorem bound?_append [Coordinate R] [Std.Associative (Coordinate.least : R → R → R)]
    [Std.Associative (Coordinate.greatest : R → R → R)] (front rest : List (Extent R)) :
    bound? (front ++ rest) = (bound? front).merge Box.union (bound? rest) := by
  unfold bound?
  rw [List.map_append, List.foldl_append, ← @List.foldl_assoc _ (Option.merge Box.union),
    Option.merge_none_right]

end Extent

variable [Zero R] [One R] [Add R] [Neg R] [Mul R] [Div R] [BEq R] [Coordinate R]

namespace Part

def bound? (parts : List (Part R)) : Except Fault (Option (Box R)) :=
  (Fault.collect (parts.map extent)).map Extent.bound?

theorem bound?_singleton (part : Part R) :
    bound? [part] = part.extent.map fun extent => some extent.box := by
  rw [bound?, List.map_singleton]
  cases part.extent <;> rfl

theorem eq_nil_of_bound? (h : bound? parts = .ok none) : parts = [] := by
  obtain ⟨extents, hcollect, hnone⟩ := Fault.exists_of_map h
  cases extents with
  | nil => exact List.map_eq_nil_iff.mp (Fault.eq_map_of_collect hcollect)
  | cons first rest =>
    rw [Extent.bound?_cons] at hnone
    cases hnone

/-- A part without a rule of its own is bounded by its parts, or lies at the origin. -/
theorem extent_of_unruled (h : part.head.kind ∉ Kind.ruled) :
    part.extent = (bound? part.parts).map fun box? => box?.elim .unknown .ofBox := by
  have hrule : part.extent = (Fault.collect (part.parts.map extent)).map Extent.around := by
    have hkind {kind : Kind} (heq : part.head.kind = kind) : kind ∉ Kind.ruled := heq ▸ h
    rw [extent, fold_eq]
    show extentRule part.head (part.parts.map extent) = _
    unfold extentRule
    split
    · rename_i heq
      exact absurd (by decide) (hkind heq)
    · rename_i heq
      exact absurd (by decide) (hkind heq)
    · cases Fault.collect (part.parts.map extent) with
      | error fault => rfl
      | ok extents =>
        show part.head.extentOf extents = .ok (Extent.around extents)
        unfold Head.extentOf
        dsimp only
        split
        case h_9 => rfl
        all_goals
          rename_i heq
          exact absurd (by decide) (hkind heq)
  rw [hrule, bound?]
  cases Fault.collect (part.parts.map extent) with
  | error fault => rfl
  | ok extents =>
    cases extents with
    | nil => rfl
    | cons first rest =>
      show Except.ok _ = Except.ok ((Extent.bound? (first :: rest)).elim _ _)
      rw [Extent.bound?_cons]
      rfl

theorem extent_of_operation (h : part.head.kind ∈ Kind.operations) :
    part.extent = (bound? part.parts).map fun box? => box?.elim .unknown .ofBox :=
  extent_of_unruled (Kind.not_mem_ruled_of_mem_operations h)

theorem bound?_of_operation (h : part.head.kind ∈ Kind.operations) (hparts : part.parts ≠ []) :
    bound? [part] = bound? part.parts := by
  rw [bound?_singleton, extent_of_operation h]
  cases hbound : bound? part.parts with
  | error fault => rfl
  | ok box? =>
    cases box? with
    | none => exact absurd (eq_nil_of_bound? hbound) hparts
    | some box => rfl

variable [Std.Associative (Coordinate.least : R → R → R)]
  [Std.Associative (Coordinate.greatest : R → R → R)]

theorem bound?_append (front rest : List (Part R)) :
    bound? (front ++ rest) = do return (← bound? front).merge Box.union (← bound? rest) := by
  simp only [bound?, List.map_append, Fault.collect_append]
  cases Fault.collect (front.map extent) with
  | error fault => rfl
  | ok extents =>
    cases Fault.collect (rest.map extent) with
    | error fault => rfl
    | ok others => exact congrArg Except.ok (Extent.bound?_append extents others)

theorem bound?_membersOf (h : ∀ part ∈ parts, bound? (part.members outer) = bound? [part]) :
    bound? (membersOf outer parts) = bound? parts := by
  induction parts with
  | nil => rfl
  | cons part rest ih =>
    obtain ⟨hpart, hrest⟩ := List.forall_mem_cons.mp h
    rw [membersOf, bound?_append, hpart, ih hrest, ← bound?_append, List.singleton_append]

/-- What a part contributes to a group is bounded as the part is. -/
theorem bound?_members (houter : outer ∈ Kind.operations) (part : Part R)
    (h : ∀ gone, Dissolved outer gone part → gone.parts ≠ []) :
    bound? (part.members outer) = bound? [part] := by
  induction part using absorbing_induction outer with
  | kept part hkept => rw [members_of_not_absorbed hkept]
  | absorbed part habsorbed ih =>
    obtain ⟨hne, hbelow⟩ := forall_dissolved_iff.mp h habsorbed
    have hkind := Kind.mem_operations_of_absorbs houter (isAbsorbedBy_iff.mp habsorbed).1
    rw [members_of_absorbed habsorbed, bound?_of_operation hkind hne,
      bound?_membersOf fun inner hmem => ih inner hmem (hbelow inner hmem)]

end Part

/-! ## Groups of doubles -/

/-- A group has the extent, or the first fault, and the place in the plane that an operation of its
kind on the same parts has, if nothing that the group dissolved was empty. -/
theorem Build.measured_groupAs {kind : Kind} (hkind : kind ∈ Kind.operations)
    {parts : List (Part Float)}
    (hne : ∀ part ∈ parts, ∀ gone, Dissolved kind gone part → gone.parts ≠ []) (role : Role)
    (args : List (Value Float)) (named : Named (Value Float)) (next next' : Nat) :
    (groupAs role kind parts next).1.extent = (plain kind parts args named next').1.extent ∧
      (groupAs role kind parts next).1.isPlanar =
        (plain kind parts args named next').1.isPlanar := by
  have hempty : (membersOf kind parts).isEmpty = parts.isEmpty := by
    cases parts with
    | nil => rfl
    | cons first rest =>
      exact List.isEmpty_eq_false_iff.mpr <|
        membersOf_ne_nil (List.cons_ne_nil first rest) fun part hmem =>
          members_ne_nil part (hne part hmem)
  have hbound := bound?_membersOf fun part hmem => bound?_members hkind part (hne part hmem)
  have hplanar := all_isPlanar_membersOf fun part hmem =>
    all_isPlanar_members hkind part (hne part hmem)
  constructor
  · rw [extent_of_operation hkind, extent_of_operation hkind]
    exact congrArg (Except.map _) hbound
  · rw [isPlanar_of_operation hkind, isPlanar_of_operation hkind]
    show (!(membersOf kind parts).isEmpty && (membersOf kind parts).all isPlanar) =
      (!parts.isEmpty && parts.all isPlanar)
    rw [hempty, hplanar]

namespace Part

def plate : Part Float := ⟨0, .ofKind .cube [.vector ⟨4, 3, 1⟩] ∅ .plain, []⟩

def knob : Part Float := ⟨1, .ofKind .cylinder [.text "wide"] ∅ .plain, []⟩

def lid : Part Float := ⟨2, .ofKind .union [] ∅ .group, [plate, knob]⟩

def jar : Part Float := ⟨3, .ofKind .hull [] ∅ .group, [plate, lid]⟩

/-- A hull that has dissolved a hull and a union below it is measured as if these were there. -/
theorem measured_hull_jar :
    (∀ part ∈ [jar, plate], ∀ gone, Dissolved .hull gone part → gone.parts ≠ []) ∧
      (Build.hull [jar, plate] 4).1.parts = [plate, plate, knob, plate] ∧
      (Build.hull [jar, plate] 4).1.extent = (Build.plain .hull [jar, plate] [] ∅ 4).1.extent := by
  have hplate : ∀ gone, Dissolved .hull gone plate → gone.parts ≠ [] :=
    forall_dissolved_iff.mpr fun h => absurd h (by decide)
  have hknob : ∀ gone, Dissolved .hull gone knob → gone.parts ≠ [] :=
    forall_dissolved_iff.mpr fun h => absurd h (by decide)
  have hlid : ∀ gone, Dissolved .hull gone lid → gone.parts ≠ [] := by
    refine forall_dissolved_iff.mpr fun _ => ⟨List.cons_ne_nil _ _, ?_⟩
    exact List.forall_mem_cons.mpr ⟨hplate, List.forall_mem_singleton.mpr hknob⟩
  have hjar : ∀ gone, Dissolved .hull gone jar → gone.parts ≠ [] := by
    refine forall_dissolved_iff.mpr fun _ => ⟨List.cons_ne_nil _ _, ?_⟩
    exact List.forall_mem_cons.mpr ⟨hplate, List.forall_mem_singleton.mpr hlid⟩
  have hne : ∀ part ∈ [jar, plate], ∀ gone, Dissolved .hull gone part → gone.parts ≠ [] :=
    List.forall_mem_cons.mpr ⟨hjar, List.forall_mem_singleton.mpr hplate⟩
  exact ⟨hne, rfl, (Build.measured_groupAs (by decide) hne .group [] ∅ 4 4).1⟩

end Part

end SolidScript
