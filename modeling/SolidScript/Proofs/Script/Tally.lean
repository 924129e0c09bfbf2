import Mathlib.Data.Finset.Dedup
import Mathlib.Data.List.Nodup
import SolidScript.Proofs.Script.Cells

/-!
# Counting texts

What the counts of a writer grow by. `walk` lists the visits of a writer that keeps nothing. A
writer that keeps texts settles the parts of a walk one by one, each of them once: `Tally` says
that some settled parts account for what became of the texts and of both counts. Tallies of calls
in a row are put together, and the tally of a part is that of the parts entered and one more.
-/

namespace SolidScript

open SolidScript.Part

namespace Part

mutual

/-- The visits of a writer that keeps nothing: the part and, unless its own arguments cannot be
written, the walks of the parts below it up to the first that cannot be written. -/
def walk : Part Float → List (Part Float)
  | part@⟨_, head, parts⟩ =>
    match Script.opening head with
    | .error _ => [part]
    | .ok _ => part :: walkAll parts

def walkAll : List (Part Float) → List (Part Float)
  | [] => []
  | part :: rest =>
    match part.script with
    | .error _ => part.walk
    | .ok _ => part.walk ++ walkAll rest

end

theorem walkAll_eq (parts : List (Part Float)) :
    walkAll parts = (upToFault parts).flatMap walk := by
  induction parts with
  | nil => rfl
  | cons part rest ih =>
    rw [walkAll]
    cases hpart : part.script with
    | error fault => simp [upToFault_cons_error hpart]
    | ok text => simp [upToFault_cons_ok hpart, ih]

theorem walk_eq (part : Part Float) : part.walk = part :: part.entered.flatMap walk := by
  cases part with
  | mk serial head parts =>
    rw [walk, entered]
    cases Script.opening head with
    | error fault => rfl
    | ok before => rw [walkAll_eq]

theorem mem_walk_self (part : Part Float) : part ∈ part.walk := by
  rw [walk_eq]
  exact List.mem_cons_self

theorem mem_walk_of_entered {inner part visit : Part Float} (hinner : inner ∈ part.entered)
    (h : visit ∈ inner.walk) : visit ∈ part.walk := by
  rw [walk_eq]
  exact List.mem_cons_of_mem _ (List.mem_flatMap.mpr ⟨inner, hinner, h⟩)

theorem mem_walk {part visit : Part Float} (h : visit ∈ part.walk) :
    visit = part ∨ ∃ inner ∈ part.entered, visit ∈ inner.walk := by
  rw [walk_eq] at h
  exact (List.mem_cons.mp h).imp_right List.mem_flatMap.mp

theorem within_of_mem_walk {part visit : Part Float} (h : visit ∈ part.walk) :
    Within visit part := by
  induction part using Part.induction with
  | step part ih =>
    rcases mem_walk h with rfl | ⟨inner, hinner, h⟩
    · exact .self
    · have hmem := mem_of_mem_entered hinner
      exact .inside hmem (ih inner hmem h)

theorem not_mem_walk_of_entered {inner part : Part Float} (h : inner ∈ part.entered) :
    part ∉ inner.walk := by
  intro hwalk
  have hle := (within_of_mem_walk hwalk).size_le
  have hlt := size_lt_of_mem (mem_of_mem_entered h)
  omega

open scoped Classical in
/-- The parts that the walks of some roots visit. -/
noncomputable def visited (roots : List (Part Float)) : Finset (Part Float) :=
  (roots.flatMap walk).toFinset

@[simp] theorem mem_visited {roots : List (Part Float)} {part : Part Float} :
    part ∈ visited roots ↔ ∃ root ∈ roots, part ∈ root.walk := by
  simp [visited]

theorem visited_perm {roots rest : List (Part Float)} (h : roots.Perm rest) :
    visited roots = visited rest := by
  ext part
  simp only [mem_visited, h.mem_iff]

end Part

theorem HoldsTexts.walk {parts : Set (Part Float)} {next : Nat} {texts : Memo ScriptResult}
    (h : HoldsTexts parts texts) (heap : IsHeap parts next) {part visit : Part Float}
    (hvisit : visit ∈ part.walk) (hpart : part ∈ parts) (hsome : (texts.get? part).isSome) :
    visit ∈ parts ∧ (texts.get? visit).isSome := by
  induction part using Part.induction with
  | step part ih =>
    rcases mem_walk hvisit with rfl | ⟨inner, hinner, hwalk⟩
    · exact ⟨hpart, hsome⟩
    · have hmem := mem_of_mem_entered hinner
      exact ih inner hmem hwalk (heap.closed part hpart inner hmem)
        (h.entered part hpart hsome inner hinner)

namespace Writer

/-- The parts of a heap that were settled when some roots were written, each once: parts of the
walks that had no text and now have one. A settled part counts as built unless it has a fault; a
visit counts as found unless it settled its part. -/
structure Tally (parts : Set (Part Float)) (roots settled : List (Part Float))
    (before after : Writer) : Prop where
  nodup : settled.Nodup
  walked : ∀ part ∈ settled, ∃ root ∈ roots, part ∈ root.walk
  lacking : ∀ part ∈ settled, before.texts.get? part = none
  cells : ∀ part ∈ parts,
    (after.texts.get? part).isSome ↔ (before.texts.get? part).isSome ∨ part ∈ settled
  inside : ∀ part ∈ settled, part ∈ parts
  written : ∀ root ∈ roots, root ∈ parts ∧ (after.texts.get? root).isSome
  built : after.built = before.built + settled.countP fun part => part.script.isOk
  found : after.found + settled.length =
    before.found + roots.length + (settled.flatMap entered).length

variable {parts : Set (Part Float)} {writer before middle after : Writer}
  {roots rest settled settled' : List (Part Float)}

theorem Tally.nil (parts : Set (Part Float)) (writer : Writer) :
    Tally parts [] [] writer writer where
  nodup := List.nodup_nil
  walked := List.forall_mem_nil _
  lacking := List.forall_mem_nil _
  cells part _ := by simp
  inside := List.forall_mem_nil _
  written := List.forall_mem_nil _
  built := rfl
  found := rfl

/-- What was settled first has its text when the others are written. -/
theorem Tally.append (h : Tally parts roots settled before middle)
    (h' : Tally parts rest settled' middle after) :
    Tally parts (roots ++ rest) (settled ++ settled') before after where
  nodup := by
    -- What was settled first has its text by then, and is not settled again.
    refine h.nodup.append h'.nodup fun part hmem hmem' => ?_
    have hsome := (h.cells part (h.inside part hmem)).mpr (.inr hmem)
    rw [h'.lacking part hmem'] at hsome
    cases hsome
  walked part hmem := by
    rcases List.mem_append.mp hmem with hmem | hmem
    · obtain ⟨root, hroot, hwalk⟩ := h.walked part hmem
      exact ⟨root, List.mem_append_left _ hroot, hwalk⟩
    · obtain ⟨root, hroot, hwalk⟩ := h'.walked part hmem
      exact ⟨root, List.mem_append_right _ hroot, hwalk⟩
  lacking part hmem := by
    rcases List.mem_append.mp hmem with hmem | hmem
    · exact h.lacking part hmem
    · by_contra hsome
      have hkept := (h.cells part (h'.inside part hmem)).mpr
        (.inl (Option.isSome_iff_ne_none.mpr hsome))
      rw [h'.lacking part hmem] at hkept
      cases hkept
  cells part hpart := by rw [h'.cells part hpart, h.cells part hpart, List.mem_append, or_assoc]
  inside part hmem := (List.mem_append.mp hmem).elim (h.inside part) (h'.inside part)
  written root hmem := by
    rcases List.mem_append.mp hmem with hmem | hmem
    · obtain ⟨hroot, hsome⟩ := h.written root hmem
      exact ⟨hroot, (h'.cells root hroot).mpr (.inl hsome)⟩
    · exact h'.written root hmem
  built := by rw [h'.built, h.built, List.countP_append, Nat.add_assoc]
  found := by
    have hfirst := h.found
    have hsecond := h'.found
    rw [List.length_append, List.length_append, List.flatMap_append, List.length_append]
    omega

theorem Tally.found_again {part : Part Float} (hpart : part ∈ parts)
    (hsome : (writer.texts.get? part).isSome) :
    Tally parts [part] [] writer { writer with found := writer.found + 1 } where
  nodup := List.nodup_nil
  walked := List.forall_mem_nil _
  lacking := List.forall_mem_nil _
  cells part _ := by simp
  inside := List.forall_mem_nil _
  written root hmem := by
    rw [List.mem_singleton.mp hmem]
    exact ⟨hpart, hsome⟩
  built := rfl
  found := rfl

/-- A part without a text is settled after the parts entered for it. -/
theorem Tally.settle {part : Part Float} (hapart : Set.InjOn Part.serial parts)
    (hpart : part ∈ parts) (hnone : writer.texts.get? part = none)
    (h : Tally parts part.entered settled writer middle) :
    Tally parts [part] (settled ++ [part]) writer (middle.settle part) where
  nodup := by
    refine h.nodup.append (List.nodup_singleton part) fun other hmem hother => ?_
    rw [List.mem_singleton.mp hother] at hmem
    obtain ⟨inner, hinner, hwalk⟩ := h.walked part hmem
    exact not_mem_walk_of_entered hinner hwalk
  walked other hmem := by
    refine ⟨part, List.mem_cons_self, ?_⟩
    rcases List.mem_append.mp hmem with hmem | hmem
    · obtain ⟨inner, hinner, hwalk⟩ := h.walked other hmem
      exact mem_walk_of_entered hinner hwalk
    · rw [List.mem_singleton.mp hmem]
      exact part.mem_walk_self
  lacking other hmem := by
    rcases List.mem_append.mp hmem with hmem | hmem
    · exact h.lacking other hmem
    · rw [List.mem_singleton.mp hmem]
      exact hnone
  cells other hother := by
    rw [List.mem_append, List.mem_singleton, ← or_assoc, ← h.cells other hother]
    constructor
    · intro hsome
      exact (Memo.isSome_get?_fill hsome).imp_right (hapart hother hpart)
    · rintro (hsome | rfl)
      · exact (middle.texts.keeps_fill part part.script).isSome hsome
      · exact Memo.isSome_get?_fill_self _ _ _
  inside other hmem := by
    rcases List.mem_append.mp hmem with hmem | hmem
    · exact h.inside other hmem
    · rw [List.mem_singleton.mp hmem]
      exact hpart
  written root hmem := by
    rw [List.mem_singleton.mp hmem]
    exact ⟨hpart, Memo.isSome_get?_fill_self _ _ _⟩
  built := by
    show middle.built + _ = _
    rw [h.built, List.countP_append, List.countP_singleton, Nat.add_assoc]
  found := by
    have hbelow := h.found
    show middle.found + _ = _
    rw [List.length_append, List.flatMap_append, List.length_append, List.flatMap_singleton]
    simp only [List.length_singleton]
    omega

/-- Whatever is written on a heap has a tally. -/
def Tallies (parts : Set (Part Float)) (part : Part Float) : Prop :=
  ∀ writer : Writer, HoldsTexts parts writer.texts →
    ∃ settled, Tally parts [part] settled writer (writer.visit part)

theorem tally_of_visits {next : Nat} (heap : IsHeap parts next)
    (hroots : ∀ root ∈ roots, root ∈ parts ∧ Tallies parts root)
    (holds : HoldsTexts parts writer.texts) :
    ∃ settled, Tally parts roots settled writer (roots.foldl visit writer) := by
  induction roots generalizing writer with
  | nil => exact ⟨[], .nil parts writer⟩
  | cons root rest ih =>
    obtain ⟨⟨hroot, htallies⟩, hrest⟩ := List.forall_mem_cons.mp hroots
    obtain ⟨settled, htally⟩ := htallies writer holds
    have hvisited := (writes heap root hroot writer holds).2
    obtain ⟨others, hothers⟩ := ih hrest hvisited.holds
    exact ⟨settled ++ others, htally.append hothers⟩

theorem tallies {next : Nat} (heap : IsHeap parts next) (part : Part Float) :
    part ∈ parts → Tallies parts part := by
  induction part using Part.induction with
  | step part ih =>
    intro hpart writer holds
    have hclosed := heap.closed part hpart
    unfold visit
    cases hget : writer.texts.get? part with
    | some result =>
      rw [write_eq, hget]
      exact ⟨[], .found_again hpart (by rw [hget]; rfl)⟩
    | none =>
      have hbelow : ∀ inner ∈ part.parts, Writes parts inner :=
        fun inner hinner => writes heap inner (hclosed inner hinner)
      have hentered : ∀ inner ∈ part.entered, inner ∈ parts ∧ Tallies parts inner := by
        intro inner hinner
        have hmem := mem_of_mem_entered hinner
        exact ⟨hclosed inner hmem, ih inner hmem (hclosed inner hmem)⟩
      obtain ⟨settled, htally⟩ := tally_of_visits heap hentered holds
      rw [(write_of_below hbelow holds hget).1]
      exact ⟨settled ++ [part], htally.settle heap.apart hpart hget⟩

/-- On texts that are all missing, what is settled is what the walks of the roots visit. -/
theorem Tally.mem_settled {next : Nat} (h : Tally parts roots settled before after)
    (heap : IsHeap parts next) (hempty : before.texts = ∅) (holds : HoldsTexts parts after.texts)
    (part : Part Float) : part ∈ settled ↔ part ∈ visited roots := by
  rw [mem_visited]
  constructor
  · exact h.walked part
  · -- With the text of a root all texts of its walk are kept, and none of them was kept before.
    rintro ⟨root, hroot, hwalk⟩
    obtain ⟨hmem, hsome⟩ := h.written root hroot
    obtain ⟨hpart, hkept⟩ := holds.walk heap hwalk hmem hsome
    rcases (h.cells part hpart).mp hkept with hbefore | hsettled
    · rw [hempty, Memo.get?_empty] at hbefore
      cases hbefore
    · exact hsettled

end Writer

end SolidScript
