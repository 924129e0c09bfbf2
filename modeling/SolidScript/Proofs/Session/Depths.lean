import SolidScript.Proofs.Session.Extents

/-!
# Depths in a session

`Memo.Turn` is one turn of the loop that fills a memory, and `Memo.settle` is where its turns end
(`Memo.turns_settle`). The invariant is that the agenda is in order (`Memo.InOrder`): a part is left
only when each part below it has its value or stands before it on the agenda. So no turn ever falls
back on the value for a missing one (`Memo.Turn.of_inOrder`), and below a part with a value all
parts have theirs (`Memo.Closed`).

In a session, after any steps, a part that is asked for its depth answers with that of its full
expansion (`World.depth_settled`).
-/

namespace SolidScript

open SolidScript.Part Relation

/-! ## Depth -/

namespace Part

variable {R : Type} {part : Part R}

theorem depth_eq (part : Part R) :
    part.depth = ((part.parts.map depth).map (· + 1)).max?.getD 0 := by
  rw [depth, fold_eq, depthRule, List.foldl_max, Nat.max_eq_right (Nat.zero_le _)]
  rfl

theorem depth_of_parts_eq_nil (h : part.parts = []) : part.depth = 0 := by
  rw [depth_eq, h]
  rfl

theorem exists_deepest (h : part.parts ≠ []) :
    ∃ deepest ∈ part.parts, part.depth = deepest.depth + 1 ∧
      ∀ inner ∈ part.parts, inner.depth ≤ deepest.depth := by
  rw [depth_eq, List.map_map]
  cases hmax : (part.parts.map ((· + 1) ∘ depth)).max? with
  | none => exact absurd (List.map_eq_nil_iff.mp (List.max?_eq_none_iff.mp hmax)) h
  | some greatest =>
    obtain ⟨hmem, hle⟩ := List.max?_eq_some_iff.mp hmax
    obtain ⟨deepest, hdeepest, rfl⟩ := List.mem_map.mp hmem
    refine ⟨deepest, hdeepest, rfl, fun inner hinner => ?_⟩
    exact Nat.le_of_succ_le_succ (hle _ (List.mem_map_of_mem hinner))

end Part

/-! ## Turns of the loop -/

namespace Memo

variable {α : Type} {rule : Head Float → List α → α} {missing : α}

/-- What is still to be worked off, and what is kept by then. -/
abbrev Work (α : Type) := List (Visit Float) × Memo α

/-- One turn of the loop: a part with a value is passed over, another one is entered with the parts
below it that lack theirs, and a part that is left gets its value. -/
inductive Turn (rule : Head Float → List α → α) (missing : α) : Work α → Work α → Prop where
  | pass {part : Part Float} {rest : List (Visit Float)} {memo : Memo α} :
    (memo.get? part).isSome → Turn rule missing (.enter part :: rest, memo) (rest, memo)
  | enter {part : Part Float} {rest : List (Visit Float)} {memo : Memo α} :
    memo.get? part = none →
      Turn rule missing (.enter part :: rest, memo) (memo.descend part rest, memo)
  | leave (part : Part Float) (rest : List (Visit Float)) (memo : Memo α) :
    Turn rule missing (.leave part :: rest, memo)
      (rest, memo.fill part
        (rule part.head (part.parts.map fun inner => (memo.get? inner).getD missing)))

theorem exists_turn (rule : Head Float → List α → α) (missing : α) (visit : Visit Float)
    (rest : List (Visit Float)) (memo : Memo α) :
    ∃ next, Turn rule missing (visit :: rest, memo) next := by
  cases visit with
  | enter part =>
    cases hget : memo.get? part with
    | none => exact ⟨_, .enter hget⟩
    | some value => exact ⟨_, .pass (by rw [hget]; rfl)⟩
  | leave part => exact ⟨_, .leave part rest memo⟩

namespace Turn

variable {work next : Work α}

theorem settle_eq (turn : Turn rule missing work next) :
    settle rule missing work.1 work.2 = settle rule missing next.1 next.2 := by
  cases turn with
  | pass hkept =>
    obtain ⟨value, hvalue⟩ := Option.isSome_iff_exists.mp hkept
    rw [settle, hvalue]
  | enter hnone => rw [settle, hnone]
  | leave => rw [settle]

theorem weight_lt (turn : Turn rule missing work next) :
    agendaWeight next.1 < agendaWeight work.1 := by
  cases turn with
  | @pass part => simp [Visit.weight, size_eq part]
  | @enter part rest memo => exact agendaWeight_descend memo part rest
  | leave part rest => exact agendaWeight_leave part rest

theorem keeps (turn : Turn rule missing work next) : next.2.Keeps work.2 := by
  cases turn with
  | pass | enter => exact .refl _
  | leave => exact keeps_fill _ _ _

end Turn

theorem turns_settle_eq {work next : Work α} (turns : ReflTransGen (Turn rule missing) work next) :
    settle rule missing work.1 work.2 = settle rule missing next.1 next.2 := by
  induction turns with
  | refl => rfl
  | tail _ turn ih => exact ih.trans turn.settle_eq

theorem turns_keeps {work next : Work α} (turns : ReflTransGen (Turn rule missing) work next) :
    next.2.Keeps work.2 := by
  induction turns with
  | refl => exact .refl _
  | tail _ turn ih => exact ih.trans turn.keeps

theorem turns_settle (rule : Head Float → List α → α) (missing : α) (work : Work α) :
    ReflTransGen (Turn rule missing) work ([], settle rule missing work.1 work.2) := by
  obtain ⟨agenda, memo⟩ := work
  match agenda with
  | [] =>
    rw [settle]
  | visit :: rest =>
    obtain ⟨next, hturn⟩ := exists_turn rule missing visit rest memo
    have hlt := hturn.weight_lt
    rw [hturn.settle_eq]
    exact .head hturn (turns_settle rule missing next)
termination_by agendaWeight work.1

/-! ## The order of an agenda -/

def kept (memo : Memo α) : Set (Part Float) := {part | (memo.get? part).isSome}

theorem mem_kept {memo : Memo α} {part : Part Float} :
    part ∈ memo.kept ↔ (memo.get? part).isSome := Iff.rfl

/-- A part is left after the parts below it, unless these are ready from the start. -/
def InOrder (ready : Set (Part Float)) : List (Visit Float) → Prop
  | [] => True
  | .enter part :: rest => InOrder (insert part ready) rest
  | .leave part :: rest => (∀ inner ∈ part.parts, inner ∈ ready) ∧ InOrder (insert part ready) rest

theorem InOrder.mono {agenda : List (Visit Float)} {ready more : Set (Part Float)}
    (h : InOrder ready agenda) (hsub : ready ⊆ more) : InOrder more agenda := by
  induction agenda generalizing ready more with
  | nil => exact h
  | cons visit rest ih =>
    cases visit with
    | enter part => exact ih h (Set.insert_subset_insert hsub)
    | leave part =>
      exact ⟨fun inner hinner => hsub (h.1 inner hinner), ih h.2 (Set.insert_subset_insert hsub)⟩

/-- Parts that are entered count as ready for what comes after them. -/
theorem inOrder_enters {entered : List (Part Float)} {rest : List (Visit Float)}
    {ready : Set (Part Float)} (h : InOrder (ready ∪ {part | part ∈ entered}) rest) :
    InOrder ready (entered.map .enter ++ rest) := by
  induction entered generalizing ready with
  | nil => exact h.mono (Set.union_subset Set.Subset.rfl fun _ hmem => absurd hmem List.not_mem_nil)
  | cons part entered ih =>
    refine ih (h.mono (Set.union_subset ?_ fun inner hmem => ?_))
    · exact (Set.subset_insert part ready).trans Set.subset_union_left
    · rcases List.mem_cons.mp hmem with rfl | hmem
      · exact .inl (Set.mem_insert _ _)
      · exact .inr hmem

theorem kept_fill_subset (memo : Memo α) (part : Part Float) (value : α) :
    insert part memo.kept ⊆ (memo.fill part value).kept :=
  Set.insert_subset (memo.isSome_get?_fill_self part value) fun _ hsome =>
    (memo.keeps_fill part value).isSome hsome

theorem Turn.inOrder {work next : Work α} (turn : Turn rule missing work next)
    (h : InOrder work.2.kept work.1) : InOrder next.2.kept next.1 := by
  cases turn with
  | pass hkept => exact InOrder.mono h (Set.insert_subset hkept Set.Subset.rfl)
  | @enter part rest memo hnone =>
    refine inOrder_enters ⟨fun inner hinner => ?_, ?_⟩
    · -- A part below has its value, or it is entered.
      by_cases hsome : (memo.get? inner).isSome
      · exact .inl hsome
      · exact .inr (memo.mem_reverse_lacking.mpr ⟨hinner, Option.not_isSome_iff_eq_none.mp hsome⟩)
    · exact InOrder.mono h (Set.insert_subset_insert Set.subset_union_left)
  | leave part rest memo => exact h.2.mono (kept_fill_subset memo part _)

theorem inOrder_of_turns {work next : Work α} (turns : ReflTransGen (Turn rule missing) work next)
    (h : InOrder work.2.kept work.1) : InOrder next.2.kept next.1 := by
  induction turns with
  | refl => exact h
  | tail _ turn ih => exact turn.inOrder ih

/-- In order, no turn depends on what stands for a missing value. -/
theorem Turn.of_inOrder {work next : Work α} (turn : Turn rule missing work next)
    (h : InOrder work.2.kept work.1) (other : α) : Turn rule other work next := by
  cases turn with
  | pass hkept => exact .pass hkept
  | enter hnone => exact .enter hnone
  | leave part rest memo =>
    have hvalues : (part.parts.map fun inner => (memo.get? inner).getD missing) =
        part.parts.map fun inner => (memo.get? inner).getD other := by
      refine List.map_congr_left fun inner hinner => ?_
      obtain ⟨value, hvalue⟩ := Option.isSome_iff_exists.mp (h.1 inner hinner)
      rw [hvalue, Option.getD_some, Option.getD_some]
    rw [hvalues]
    exact .leave part rest memo

theorem turns_of_inOrder {work next : Work α} (turns : ReflTransGen (Turn rule missing) work next)
    (h : InOrder work.2.kept work.1) (other : α) : ReflTransGen (Turn rule other) work next := by
  induction turns with
  | refl => exact .refl
  | tail turns turn ih => exact ih.tail (turn.of_inOrder (inOrder_of_turns turns h) other)

theorem inOrder_enter (ready : Set (Part Float)) (part : Part Float) :
    InOrder ready [.enter part] := trivial

/-- A part alone on the agenda is settled the same way, whatever stands for a missing value. -/
theorem settle_missing (memo : Memo α) (part : Part Float) (other : α) :
    settle rule other [.enter part] memo = settle rule missing [.enter part] memo := by
  have hturns := turns_settle rule missing ([.enter part], memo)
  rw [turns_settle_eq (turns_of_inOrder hturns (inOrder_enter _ part) other), settle]

/-! ## Values with all that they need -/

variable {parts : Set (Part Float)} {value : Part Float → α} {next : Nat}

/-- Below a part with a value all parts have theirs. -/
def Closed (memo : Memo α) (parts : Set (Part Float)) : Prop :=
  ∀ part ∈ parts, part ∈ memo.kept → ∀ inner ∈ part.parts, inner ∈ memo.kept

theorem Closed.fill {memo : Memo α} (h : memo.Closed parts) (hapart : Set.InjOn Part.serial parts)
    {part : Part Float} (hpart : part ∈ parts) (hbelow : ∀ inner ∈ part.parts, inner ∈ memo.kept)
    (value : α) : (memo.fill part value).Closed parts := by
  intro other hother hkept inner hinner
  have hmem : inner ∈ memo.kept := by
    rcases isSome_get?_fill hkept with hkept | hserial
    · exact h other hother hkept inner hinner
    · exact hbelow inner (hapart hother hpart hserial ▸ hinner)
  exact kept_fill_subset memo part value (.inr hmem)

theorem Closed.within {memo : Memo α} (h : memo.Closed parts) (heap : IsHeap parts next)
    {inner part : Part Float} (hpart : part ∈ parts) (hkept : part ∈ memo.kept)
    (hw : Within inner part) : inner ∈ memo.kept := by
  induction hw with
  | self => exact hkept
  | inside hmem _ ih => exact ih (heap.closed _ hpart _ hmem) (h _ hpart hkept _ hmem)

/-- What is kept are values of parts, each with those of all parts below, and none of a part
outside. -/
structure Complete (memo : Memo α) (parts : Set (Part Float)) (value : Part Float → α) : Prop where
  holds : memo.Holds parts value
  closed : memo.Closed parts
  among : memo.Among parts

theorem Complete.empty (parts : Set (Part Float)) (value : Part Float → α) :
    (∅ : Memo α).Complete parts value where
  holds := .empty parts value
  closed part _ hkept := by
    rw [mem_kept, get?_empty] at hkept
    cases hkept
  among := .empty parts

theorem Complete.grow {memo : Memo α} {later : Nat} (h : memo.Complete parts value)
    (heap : IsHeap parts next) {built : List (Part Float)}
    (growth : Growth parts next built later) : memo.Complete (parts ∪ contents built) value where
  holds := h.holds.grow h.among heap growth
  closed part hpart hkept := by
    rcases growth.old_or_new hpart with hold | hnew
    · exact h.closed part hold hkept
    · rw [mem_kept, h.among.get?_new heap hnew] at hkept
      cases hkept
  among := h.among.mono Set.subset_union_left

/-- The agenda is in order and of parts of a heap, and what is kept is complete. -/
structure Steady (rule : Head Float → List α → α) (parts : Set (Part Float)) (work : Work α) :
    Prop where
  inOrder : InOrder work.2.kept work.1
  agenda : ∀ visit ∈ work.1, visit.part ∈ parts
  complete : work.2.Complete parts (fold rule)

theorem steady_enter {part : Part Float} {memo : Memo α} (hpart : part ∈ parts)
    (h : memo.Complete parts (fold rule)) : Steady rule parts ([.enter part], memo) :=
  ⟨inOrder_enter _ part, List.forall_mem_singleton.mpr hpart, h⟩

theorem Steady.get?_of_leave {part : Part Float} {rest : List (Visit Float)} {memo : Memo α}
    (h : Steady rule parts (.leave part :: rest, memo)) (heap : IsHeap parts next) :
    ∀ inner ∈ part.parts, memo.get? inner = some (inner.fold rule) := by
  intro inner hinner
  obtain ⟨value, hvalue⟩ := Option.isSome_iff_exists.mp (h.inOrder.1 inner hinner)
  have hmem := heap.closed part (h.agenda _ List.mem_cons_self) inner hinner
  rw [hvalue, h.complete.holds inner hmem value hvalue]

theorem Turn.steady {work next' : Work α} (turn : Turn rule missing work next')
    (heap : IsHeap parts next) (h : Steady rule parts work) : Steady rule parts next' := by
  refine ⟨turn.inOrder h.inOrder, ?_, ?_⟩
  · cases turn with
    | pass | leave => exact (List.forall_mem_cons.mp h.agenda).2
    | @enter part rest memo =>
      obtain ⟨hpart, hrest⟩ := List.forall_mem_cons.mp h.agenda
      refine List.forall_mem_append.mpr ⟨?_, List.forall_mem_cons.mpr ⟨hpart, hrest⟩⟩
      refine List.forall_mem_map.mpr fun inner hinner => ?_
      exact heap.closed part hpart inner (memo.mem_reverse_lacking.mp hinner).1
  · cases turn with
    | pass | enter => exact h.complete
    | leave part rest memo =>
      have hpart : part ∈ parts := h.agenda _ List.mem_cons_self
      have hvalues : (part.parts.map fun inner => (memo.get? inner).getD missing) =
          part.parts.map (fold rule) :=
        List.map_congr_left fun inner hinner => by
          rw [h.get?_of_leave heap inner hinner, Option.getD_some]
      rw [hvalues, ← fold_eq rule part]
      exact ⟨h.complete.holds.fill heap.apart hpart,
        h.complete.closed.fill heap.apart hpart h.inOrder.1 _, h.complete.among.fill hpart _⟩

theorem steady_of_turns {work next' : Work α} (turns : ReflTransGen (Turn rule missing) work next')
    (heap : IsHeap parts next) (h : Steady rule parts work) : Steady rule parts next' := by
  induction turns with
  | refl => exact h
  | tail _ turn ih => exact turn.steady heap ih

theorem Complete.settle (missing : α) {part : Part Float} {memo : Memo α}
    (h : memo.Complete parts (fold rule)) (heap : IsHeap parts next) (hpart : part ∈ parts) :
    (settle rule missing [.enter part] memo).Complete parts (fold rule) :=
  (steady_of_turns (turns_settle rule missing _) heap (steady_enter hpart h)).complete

end Memo

/-! ## Sessions -/

namespace World

variable {start world next : World}

/-- A session that has asked for no depth, on a heap of parts. -/
structure IsUnfathomed (world : World) : Prop where
  heap : IsHeap world.parts world.session.next
  depths : world.session.depths = ∅

/-- The parts form a heap, and what is kept of depths are the depths of its parts. -/
structure Fathomed (world : World) : Prop where
  heap : IsHeap world.parts world.session.next
  depths : world.session.depths.Complete world.parts Part.depth

theorem IsUnfathomed.fathomed (h : world.IsUnfathomed) : world.Fathomed where
  heap := h.heap
  depths := by
    rw [h.depths]
    exact .empty _ _

namespace Fathomed

variable (h : world.Fathomed)

include h

theorem build {construction : Build (Part Float)} (builder : Builder world.parts construction) :
    (world.build construction).Fathomed := by
  have growth := builder.adds world.parts _ Set.Subset.rfl h.heap
  exact ⟨growth.heap, h.depths.grow h.heap growth⟩

theorem apply {part : Part Float} (hpart : part ∈ world.parts) (motion : Motion Float) :
    (world.apply part motion).Fathomed := by
  obtain ⟨extents, -, happlied⟩ := world.apply_eq part motion
  have asked : Fathomed { world with session := { world.session with extents } } :=
    ⟨h.heap, h.depths⟩
  rcases happlied with hrefused | ⟨centroid, hmoved⟩
  · rw [hrefused]
    exact asked
  · rw [hmoved]
    exact asked.build (.apply centroid motion hpart)

theorem ask (question : Question) : (world.ask question).2.Fathomed := by
  cases question with
  | script part => exact ⟨h.heap, h.depths⟩
  | render settings part => exact ⟨h.heap, h.depths⟩
  | serialize writer part => exact ⟨h.heap, h.depths⟩
  | identity part =>
    show (world.query (Session.identity part)).2.Fathomed
    rw [query_identity]
    split
    · exact h
    · exact ⟨h.heap, h.depths⟩

/-- A part that is asked for its depth has it, whatever is kept. -/
theorem depth_eq {part : Part Float} (hpart : part ∈ world.parts) :
    (Session.depth part world.session).1 = part.depth ∧
      (world.after (Session.depth part)).session.depths.Keeps world.session.depths ∧
      (world.after (Session.depth part)).session.depths.get? part = some part.depth ∧
      (world.after (Session.depth part)).Fathomed := by
  obtain ⟨hvalue, hsettles⟩ := Memo.value_eq 0 h.heap hpart h.depths.holds
  refine ⟨hvalue, hsettles.keeps, hsettles.filled part List.mem_cons_self, h.heap, ?_⟩
  exact h.depths.settle 0 h.heap hpart

theorem advance (step : Advance world next) : next.Fathomed := by
  cases step with
  | step hstep =>
    cases hstep with
    | build builder => exact h.build builder
    | apply motion hpart => exact h.apply hpart motion
    | ask _ => exact h.ask _
  | extent _ => exact ⟨h.heap, h.depths⟩
  | depth hpart => exact (h.depth_eq hpart).2.2.2
  | isPlanar _ => exact ⟨h.heap, h.depths⟩

end Fathomed

theorem IsUnfathomed.fathomed_of_advances (hstart : start.IsUnfathomed)
    (steps : ReflTransGen Advance start world) : world.Fathomed := by
  induction steps with
  | refl => exact hstart.fathomed
  | tail _ step ih => exact ih.advance step

end World

/-- What the loop comes to when a part is asked for its depth. -/
def Memo.Reaches (before : Memo Nat) (part : Part Float) (work : Memo.Work Nat) : Prop :=
  ReflTransGen (Memo.Turn depthRule 0) ([.enter part], before) work

/-- The loop that is to settle a part ends, with the depths kept after. At every turn those kept are
depths of their parts and none was changed, and a part is left only when the depths of all parts
below it are kept. -/
structure SettlesDepth (parts : Set (Part Float)) (before after : Memo Nat) (part : Part Float) :
    Prop where
  ends : ∀ work, before.Reaches part work → ReflTransGen (Memo.Turn depthRule 0) work ([], after)
  right : ∀ work, before.Reaches part work → work.2.Holds parts Part.depth
  keeps : ∀ work, before.Reaches part work → work.2.Keeps before
  ready : ∀ inner rest memo, before.Reaches part (.leave inner :: rest, memo) →
    ∀ child ∈ inner.parts, memo.get? child = some child.depth

namespace World

variable {start world : World}

theorem Fathomed.settlesDepth (h : world.Fathomed) {part : Part Float}
    (hpart : part ∈ world.parts) :
    SettlesDepth world.parts world.session.depths
      (world.after (Session.depth part)).session.depths part := by
  have steady {work : Memo.Work Nat} (turns : world.session.depths.Reaches part work) :
      Memo.Steady depthRule world.parts work :=
    Memo.steady_of_turns turns h.heap (Memo.steady_enter hpart h.depths)
  refine ⟨fun work turns => ?_, fun work turns => (steady turns).complete.holds,
    fun work turns => Memo.turns_keeps turns,
    fun inner rest memo turns => (steady turns).get?_of_leave h.heap⟩
  have hend : (world.after (Session.depth part)).session.depths = _ := Memo.turns_settle_eq turns
  rw [hend]
  exact Memo.turns_settle depthRule 0 work

/-- In a session on any heap, after any number of steps, a part that is asked for its depth answers
with that of its full expansion: 0 with nothing below it, and otherwise one more than the deepest
part below it. The loop ends, settles the part, and would do the same with any other value for a
depth that is missing. -/
theorem depth_settled (hstart : start.IsUnfathomed) (steps : ReflTransGen Advance start world)
    {part : Part Float} (hpart : part ∈ world.parts) :
    (Session.depth part world.session).1 = part.depth ∧
      (part.parts = [] → part.depth = 0) ∧
      (part.parts ≠ [] → ∃ deepest ∈ part.parts, part.depth = deepest.depth + 1 ∧
        ∀ inner ∈ part.parts, inner.depth ≤ deepest.depth) ∧
      (WellFounded fun next work => Memo.Turn depthRule 0 work next) ∧
      SettlesDepth world.parts world.session.depths
        (world.after (Session.depth part)).session.depths part ∧
      ∀ missing, world.session.depths.value depthRule missing part =
        world.session.depths.value depthRule 0 part := by
  have fathomed := hstart.fathomed_of_advances steps
  refine ⟨(fathomed.depth_eq hpart).1, depth_of_parts_eq_nil, exists_deepest, ?_,
    fathomed.settlesDepth hpart, fun missing => ?_⟩
  · exact Subrelation.wf (fun turn => turn.weight_lt)
      (measure fun work : Memo.Work Nat => agendaWeight work.1).wf
  · refine Prod.ext ?_ (Memo.settle_missing _ part missing)
    rw [(Memo.value_eq missing fathomed.heap hpart fathomed.depths.holds).1,
      (Memo.value_eq 0 fathomed.heap hpart fathomed.depths.holds).1]

/-! ## A shared part -/

def gem : Part Float := ⟨0, .ofKind .sphere [] ∅ .plain, []⟩

def mount : Part Float := ⟨1, .ofKind .offset [] ∅ .plain, [gem]⟩

/-- The mount in two places, and the gem once more between them. -/
def jewel : Part Float := ⟨2, .ofKind .difference [] ∅ .plain, [mount, gem, mount]⟩

def withGem : World := initial.build (Build.plain .sphere [] [] ∅)

def withMount : World := withGem.build (Build.plain .offset [gem] [] ∅)

def withJewel : World := withMount.build (Build.plain .difference [mount, gem, mount] [] ∅)

theorem initial_isUnfathomed : initial.IsUnfathomed := ⟨.empty 0, rfl⟩

theorem advances_withJewel : ReflTransGen Advance initial withJewel := by
  have hgem : gem ∈ withGem.parts := .inr (mem_contents_of_mem List.mem_cons_self)
  have hmount : mount ∈ withMount.parts := .inr (mem_contents_of_mem List.mem_cons_self)
  have hthree : ∀ part ∈ [mount, gem, mount], part ∈ withMount.parts :=
    List.forall_mem_cons.mpr ⟨hmount, List.forall_mem_cons.mpr
      ⟨.inl hgem, List.forall_mem_singleton.mpr hmount⟩⟩
  exact .tail (.tail (.single (advance_plain .sphere _ _ (List.forall_mem_nil _)))
    (advance_plain .offset _ _ (List.forall_mem_singleton.mpr hgem)))
    (advance_plain .difference _ _ hthree)

/-- When the depth of the mount is kept already, that of the jewel is found on top of it. -/
theorem depth_settled_jewel :
    ∃ world, ReflTransGen Advance initial world ∧ jewel ∈ world.parts ∧
      world.session.depths.get? mount = some 1 ∧
      (Session.depth jewel world.session).1 = 2 ∧
      (world.after (Session.depth jewel)).session.depths.get? mount = some 1 := by
  have hjewel : jewel ∈ withJewel.parts := .inr (mem_contents_of_mem List.mem_cons_self)
  have hmount : mount ∈ withJewel.parts :=
    .inr ⟨jewel, List.mem_cons_self, .of_mem List.mem_cons_self⟩
  have fathomed := initial_isUnfathomed.fathomed_of_advances advances_withJewel
  obtain ⟨-, -, hkept, -⟩ := fathomed.depth_eq hmount
  have steps := advances_withJewel.tail (.depth hmount)
  obtain ⟨hdepth, -, -, -, hsettles, -⟩ := depth_settled initial_isUnfathomed steps hjewel
  exact ⟨_, steps, hjewel, hkept, hdepth, hsettles.keeps _ (hsettles.ends _ .refl) mount 1 hkept⟩

end World

end SolidScript
