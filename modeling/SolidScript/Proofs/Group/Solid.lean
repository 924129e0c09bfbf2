import Mathlib.Analysis.Convex.Hull
import Mathlib.Data.Real.Basic
import Mathlib.Order.CompletePartialOrder
import SolidScript.Proofs.Group.Members

/-!
# The solid of a group

A model stands for a set of points. A reading leaves open what primitives and motions make of space,
and what a hull is beyond a closure operator; unions, intersections and hulls are operations on the
sets of their parts. Though a group holds other parts than it was given, it is read as its operation
on those (`Reading.denote_groupAs`), if what it took in are mere groups: an operation can be done in
portions (`operate_flatMap`), and it does again what it absorbs (`operate_operate`).
-/

namespace SolidScript

open SolidScript.Part

variable {R Point : Type}

/-- The groups that are operations on sets of points. -/
def Kind.operations : List Kind := [union, intersection, hull]

/-- A group of so many parts that is nothing but an operation on them: it has no arguments, and an
intersection is one of something. -/
structure Head.IsMere (head : Head R) (count : Nat) : Prop where
  kind : head.kind ∈ Kind.operations
  args : head.args = []
  named : head.named.entries = []
  count : head.kind = .intersection → count ≠ 0

/-! ## What a group dissolves -/

namespace Part

variable {outer : Kind} {part : Part R} {parts : List (Part R)}

/-- A part is dissolved by a group that takes in another part if it is absorbed within that part,
and so is all that is above it. -/
inductive Dissolved (outer : Kind) (gone : Part R) : Part R → Prop where
  | self : gone.isAbsorbedBy outer → Dissolved outer gone gone
  | inside {part inner : Part R} : part.isAbsorbedBy outer → inner ∈ part.parts →
      Dissolved outer gone inner → Dissolved outer gone part

theorem Dissolved.absorbed {gone : Part R} (h : Dissolved outer gone part) :
    gone.isAbsorbedBy outer := by
  induction h with
  | self habsorbed => exact habsorbed
  | inside _ _ _ ih => exact ih

/-- Within an absorbed part, that part is dissolved, and what is dissolved within its parts. -/
theorem forall_dissolved_iff {holds : Part R → Prop} :
    (∀ gone, Dissolved outer gone part → holds gone) ↔
      (part.isAbsorbedBy outer → holds part ∧
        ∀ inner ∈ part.parts, ∀ gone, Dissolved outer gone inner → holds gone) := by
  constructor
  · intro h habsorbed
    exact ⟨h part (.self habsorbed), fun inner hmem gone hgone =>
      h gone (.inside habsorbed hmem hgone)⟩
  · intro h gone hgone
    cases hgone with
    | self habsorbed => exact (h habsorbed).1
    | inside habsorbed hmem hgone => exact (h habsorbed).2 _ hmem gone hgone

/-- All that a group dissolves of a part are mere groups. -/
def DissolvesMerely (outer : Kind) (part : Part R) : Prop :=
  ∀ gone, Dissolved outer gone part → gone.head.IsMere gone.parts.length

theorem membersOf_ne_nil (hparts : parts ≠ []) (h : ∀ part ∈ parts, part.members outer ≠ []) :
    membersOf outer parts ≠ [] := by
  obtain ⟨part, hpart⟩ := List.exists_mem_of_ne_nil _ hparts
  obtain ⟨member, hmember⟩ := List.exists_mem_of_ne_nil _ (h part hpart)
  exact List.ne_nil_of_mem (mem_membersOf_iff.mpr ⟨part, hpart, hmember⟩)

theorem members_ne_nil (part : Part R) (h : ∀ gone, Dissolved outer gone part → gone.parts ≠ []) :
    part.members outer ≠ [] := by
  induction part using absorbing_induction outer with
  | kept part hkept =>
    rw [members_of_not_absorbed hkept]
    exact List.cons_ne_nil part []
  | absorbed part habsorbed ih =>
    obtain ⟨hne, hbelow⟩ := forall_dissolved_iff.mp h habsorbed
    rw [members_of_absorbed habsorbed]
    exact membersOf_ne_nil hne fun inner hmem => ih inner hmem (hbelow inner hmem)

/-- A mere intersection is one of something, so it leaves something to intersect. -/
theorem members_intersection_ne_nil (h : part.DissolvesMerely .intersection) :
    part.members .intersection ≠ [] := by
  refine members_ne_nil part fun gone hgone => ?_
  have hkind : .intersection = gone.head.kind :=
    beq_iff_eq.mp (isAbsorbedBy_iff.mp hgone.absorbed).1
  exact fun hnil => (h gone hgone).count hkind.symm (List.length_eq_zero_iff.mpr hnil)

end Part

/-! ## Readings -/

/-- How parts are read as sets of points. -/
structure Reading (R Point : Type) where
  hull : ClosureOperator (Set Point)
  /-- What a part that is no mere group makes of the sets of its parts. -/
  other : Head R → List (Set Point) → Set Point

namespace Reading

variable {outer inner : Kind} {part : Part R} {parts : List (Part R)}

def operate (reading : Reading R Point) : Kind → List (Set Point) → Set Point
  | .intersection, solids => ⋂ solid ∈ solids, solid
  | .hull, solids => reading.hull (⋃ solid ∈ solids, solid)
  | _, solids => ⋃ solid ∈ solids, solid

theorem operate_of_ne (reading : Reading R Point) {kind : Kind} (hinter : kind ≠ .intersection)
    (hhull : kind ≠ .hull) (solids : List (Set Point)) :
    reading.operate kind solids = ⋃ solid ∈ solids, solid := by
  unfold operate
  split
  · exact absurd rfl hinter
  · exact absurd rfl hhull
  · rfl

open Classical in
/-- The set of a part, from those of its parts. -/
noncomputable def rule (reading : Reading R Point) (head : Head R) (solids : List (Set Point)) :
    Set Point :=
  if head.IsMere solids.length then reading.operate head.kind solids else reading.other head solids

@[inherit_doc rule] noncomputable def denote (reading : Reading R Point) (part : Part R) :
    Set Point :=
  part.fold reading.rule

theorem denote_of_isMere (reading : Reading R Point) (h : part.head.IsMere part.parts.length) :
    reading.denote part = reading.operate part.head.kind (part.parts.map reading.denote) := by
  rw [denote, fold_eq]
  exact if_pos (by rwa [List.length_map])

/-! ## Operations on operations -/

theorem operate_flatMap {α : Type} (reading : Reading R Point) (kind : Kind)
    (portion : α → List (Set Point)) (l : List α) :
    reading.operate kind (l.flatMap portion) =
      reading.operate kind (l.map fun a => reading.operate kind (portion a)) := by
  have hunion : ⋃ solid ∈ l.flatMap portion, solid = ⋃ a ∈ l, ⋃ solid ∈ portion a, solid := by
    simp only [List.mem_flatMap, Set.iUnion_exists, Set.biUnion_and']
  have hmap (solid : α → Set Point) : ⋃ s ∈ l.map solid, s = ⋃ a ∈ l, solid a := by
    simp only [List.mem_map, Set.iUnion_exists, Set.biUnion_and', Set.iUnion_iUnion_eq_right]
  by_cases hinter : kind = .intersection
  · subst hinter
    simp only [operate, List.mem_flatMap, List.mem_map, Set.iInter_exists, Set.biInter_and',
      Set.iInter_iInter_eq_right]
  by_cases hhull : kind = .hull
  · subst hhull
    simp only [operate, hunion, hmap]
    -- Closing each portion first adds nothing to the closure of all.
    exact (reading.hull.closure_iSup₂_closure fun a _ => ⋃ solid ∈ portion a, solid).symm
  · simp only [operate_of_ne reading hinter hhull, hunion, hmap]

/-- An operation does again what it absorbs: another one of its kind, or a union below a hull. -/
theorem operate_operate (reading : Reading R Point) (h : outer.absorbs inner)
    (solids : List (Set Point)) :
    reading.operate outer [reading.operate inner solids] = reading.operate outer solids := by
  have hself (kind : Kind) :
      reading.operate kind [reading.operate kind solids] = reading.operate kind solids := by
    have hportion := reading.operate_flatMap kind id [solids]
    rw [List.flatMap_singleton] at hportion
    exact hportion.symm
  unfold Kind.absorbs at h
  split at h
  · rcases (Bool.or_eq_true _ _).mp h with h | h
    · obtain rfl := beq_iff_eq.mp h
      exact congrArg reading.hull (by simp [operate])
    · obtain rfl := beq_iff_eq.mp h
      exact hself .hull
  · obtain rfl := beq_iff_eq.mp h
    exact hself outer

/-! ## What is taken in -/

theorem operate_membersOf (reading : Reading R Point)
    (h : ∀ part ∈ parts, reading.operate outer ((part.members outer).map reading.denote) =
      reading.operate outer [reading.denote part]) :
    reading.operate outer ((membersOf outer parts).map reading.denote) =
      reading.operate outer (parts.map reading.denote) := by
  calc reading.operate outer ((membersOf outer parts).map reading.denote)
    _ = reading.operate outer (parts.map fun part =>
          reading.operate outer ((part.members outer).map reading.denote)) := by
        rw [membersOf_eq_flatMap, List.map_flatMap, operate_flatMap]
    _ = reading.operate outer (parts.map fun part =>
          reading.operate outer [reading.denote part]) := by
        rw [List.map_congr_left h]
    _ = reading.operate outer (parts.map reading.denote) := by
        rw [← operate_flatMap, List.map_eq_flatMap]

theorem operate_members (reading : Reading R Point) (part : Part R)
    (h : part.DissolvesMerely outer) :
    reading.operate outer ((part.members outer).map reading.denote) =
      reading.operate outer [reading.denote part] := by
  induction part using absorbing_induction outer with
  | kept part hkept => rw [members_of_not_absorbed hkept, List.map_singleton]
  | absorbed part habsorbed ih =>
    obtain ⟨hmere, hbelow⟩ := forall_dissolved_iff.mp h habsorbed
    have hparts := reading.operate_membersOf fun inner hmem => ih inner hmem (hbelow inner hmem)
    rw [members_of_absorbed habsorbed, hparts, reading.denote_of_isMere hmere,
      reading.operate_operate (isAbsorbedBy_iff.mp habsorbed).1]

/-- A group is read as its operation on the parts that it was given, if those that it dissolved were
mere groups. Only an intersection has to be given a part. -/
theorem denote_groupAs (reading : Reading R Point) {kind : Kind} (hkind : kind ∈ Kind.operations)
    (hparts : kind = .intersection → parts ≠ [])
    (hmerely : ∀ part ∈ parts, part.DissolvesMerely kind) (role : Role) (next : Nat) :
    reading.denote (Build.groupAs role kind parts next).1 =
      reading.operate kind (parts.map reading.denote) := by
  have hmere : (Head.ofKind kind [] ∅ role : Head R).IsMere (membersOf kind parts).length := by
    refine ⟨hkind, rfl, rfl, ?_⟩
    rintro rfl
    have hmembers := membersOf_ne_nil (hparts rfl) fun part hpart =>
      members_intersection_ne_nil (hmerely part hpart)
    exact mt List.length_eq_zero_iff.mp hmembers
  calc reading.denote (Build.groupAs role kind parts next).1
    _ = reading.operate kind ((membersOf kind parts).map reading.denote) :=
        reading.denote_of_isMere hmere
    _ = reading.operate kind (parts.map reading.denote) :=
        reading.operate_membersOf fun part hpart =>
          reading.operate_members part (hmerely part hpart)

/-! ## Convex hulls in space -/

/-- Unit cylinders and balls, and hulls as convex hulls. -/
noncomputable def inSpace : Reading Float (Fin 3 → ℝ) where
  hull := convexHull ℝ
  other head solids :=
    match head.kind with
    | .cylinder => {point | point 0 ^ 2 + point 1 ^ 2 ≤ 1 ∧ 0 ≤ point 2 ∧ point 2 ≤ 1}
    | .sphere => {point | point 0 ^ 2 + point 1 ^ 2 + point 2 ^ 2 ≤ 1}
    | _ => ⋃ solid ∈ solids, solid

def rod : Part Float := ⟨0, .ofKind .cylinder [] ∅ .plain, []⟩

def cap : Part Float := ⟨1, .ofKind .sphere [] ∅ .plain, []⟩

def pin : Part Float := ⟨2, .ofKind .union [] ∅ .group, [rod, cap]⟩

def handle : Part Float := ⟨3, .ofKind .hull [] ∅ .group, [pin, cap]⟩

/-- A hull dissolves a hull with a union in it, and it is the convex hull around it all the same. -/
theorem denote_hull_handle :
    (∀ part ∈ [handle, rod], part.DissolvesMerely .hull) ∧
      (Build.hull [handle, rod] 4).1.parts = [rod, cap, cap, rod] ∧
      inSpace.denote (Build.hull [handle, rod] 4).1 =
        convexHull ℝ (inSpace.denote handle ∪ inSpace.denote rod) := by
  have hrod : rod.DissolvesMerely .hull :=
    forall_dissolved_iff.mpr fun h => absurd h (by decide)
  have hcap : cap.DissolvesMerely .hull :=
    forall_dissolved_iff.mpr fun h => absurd h (by decide)
  have hpin : pin.DissolvesMerely .hull := by
    refine forall_dissolved_iff.mpr fun _ => ⟨⟨by decide, rfl, rfl, nofun⟩, ?_⟩
    exact List.forall_mem_cons.mpr ⟨hrod, List.forall_mem_singleton.mpr hcap⟩
  have hhandle : handle.DissolvesMerely .hull := by
    refine forall_dissolved_iff.mpr fun _ => ⟨⟨by decide, rfl, rfl, nofun⟩, ?_⟩
    exact List.forall_mem_cons.mpr ⟨hpin, List.forall_mem_singleton.mpr hcap⟩
  have hmerely : ∀ part ∈ [handle, rod], part.DissolvesMerely .hull :=
    List.forall_mem_cons.mpr ⟨hhandle, List.forall_mem_singleton.mpr hrod⟩
  have hhull := inSpace.denote_groupAs (show .hull ∈ Kind.operations by decide)
    (fun _ => List.cons_ne_nil handle [rod]) hmerely .group 4
  refine ⟨hmerely, rfl, hhull.trans (congrArg (convexHull ℝ) ?_)⟩
  simp only [List.map_cons, List.map_nil, List.mem_pair, Set.iUnion_or, Set.iUnion_union_distrib,
    Set.iUnion_iUnion_eq_left]

end Reading

end SolidScript
