import Mathlib.Data.Set.Function
import SolidScript.Part.Build

/-!
# Heaps of shared parts

A heap holds parts with everything below them, and no two of them have one serial number, so a
serial number stands for one part. `Build.Adds` says of a construction over given parts that it
adds new parts to a heap and leaves those there as they are; it is closed under sequencing, and
`Adds.part` is the one construction that all others are made of.
-/

namespace SolidScript

variable {R α β : Type}

namespace Part

/-- A part stands within another one: it is that part, or stands within a part right below it. -/
inductive Within (inner : Part R) : Part R → Prop where
  | self : Within inner inner
  | inside {part outer : Part R} : part ∈ outer.parts → Within inner part → Within inner outer

theorem Within.of_mem {inner outer : Part R} (h : inner ∈ outer.parts) : Within inner outer :=
  .inside h .self

theorem Within.trans {inner part outer : Part R} (h : Within inner part)
    (h' : Within part outer) : Within inner outer := by
  induction h' with
  | self => exact h
  | inside hmem _ ih => exact .inside hmem ih

theorem within_iff {inner outer : Part R} :
    Within inner outer ↔ inner = outer ∨ ∃ part ∈ outer.parts, Within inner part := by
  constructor
  · intro h
    cases h with
    | self => exact .inl rfl
    | inside hmem hw => exact .inr ⟨_, hmem, hw⟩
  · rintro (rfl | ⟨part, hmem, hw⟩)
    · exact .self
    · exact .inside hmem hw

theorem forall_within_iff {holds : Part R → Prop} {outer : Part R} :
    (∀ inner, Within inner outer → holds inner) ↔
      holds outer ∧ ∀ part ∈ outer.parts, ∀ inner, Within inner part → holds inner := by
  constructor
  · exact fun h => ⟨h outer .self, fun part hmem inner hw => h inner (.inside hmem hw)⟩
  · rintro ⟨houter, hbelow⟩ inner (_ | ⟨hmem, hw⟩)
    · exact houter
    · exact hbelow _ hmem inner hw

theorem size_le_sizeAll {part : Part R} {parts : List (Part R)} (h : part ∈ parts) :
    part.size ≤ sizeAll parts := by
  induction parts with
  | nil => exact absurd h List.not_mem_nil
  | cons first rest ih =>
    rw [sizeAll_cons]
    rcases List.mem_cons.mp h with rfl | h
    · exact Nat.le_add_right _ _
    · exact (ih h).trans (Nat.le_add_left _ _)

theorem size_lt_of_mem {inner part : Part R} (h : inner ∈ part.parts) : inner.size < part.size := by
  rw [part.size_eq]
  exact Nat.lt_succ_of_le (size_le_sizeAll h)

theorem Within.size_le {inner outer : Part R} (h : Within inner outer) :
    inner.size ≤ outer.size := by
  induction h with
  | self => exact Nat.le_refl _
  | inside hmem _ ih => exact ih.trans (size_lt_of_mem hmem).le

/-- The parts that stand within one of several parts. -/
def contents (parts : List (Part R)) : Set (Part R) :=
  {inner | ∃ part ∈ parts, Within inner part}

@[simp] theorem mem_contents {parts : List (Part R)} {inner : Part R} :
    inner ∈ contents parts ↔ ∃ part ∈ parts, Within inner part := Iff.rfl

theorem mem_contents_of_mem {parts : List (Part R)} {part : Part R} (h : part ∈ parts) :
    part ∈ contents parts := ⟨part, h, .self⟩

end Part

open SolidScript.Part

/-- Parts on serial numbers below `next`, with everything below them, each part with a number of
its own. -/
structure IsHeap (parts : Set (Part R)) (next : Nat) : Prop where
  closed : ∀ part ∈ parts, ∀ inner ∈ part.parts, inner ∈ parts
  apart : Set.InjOn Part.serial parts
  below : ∀ part ∈ parts, part.serial < next

namespace IsHeap

variable {parts stock : Set (Part R)} {next : Nat}

theorem empty (next : Nat) : IsHeap (∅ : Set (Part R)) next where
  closed _ h := h.elim
  apart := Set.injOn_empty _
  below _ h := h.elim

theorem within_mem (heap : IsHeap parts next) {inner part : Part R} (hpart : part ∈ parts)
    (h : Within inner part) : inner ∈ parts := by
  induction h with
  | self => exact hpart
  | inside hmem _ ih => exact ih (heap.closed _ hpart _ hmem)

theorem contents_subset (heap : IsHeap parts next) {roots : List (Part R)}
    (h : ∀ part ∈ roots, part ∈ parts) : contents roots ⊆ parts := by
  rintro inner ⟨part, hmem, hw⟩
  exact heap.within_mem (h part hmem) hw

/-- Of a heap, a smaller heap and the contents of parts make a heap again. -/
theorem restrict (heap : IsHeap parts next) {first : Nat} (hstock : IsHeap stock first)
    {roots : List (Part R)} (h : stock ∪ contents roots ⊆ parts) :
    IsHeap (stock ∪ contents roots) next where
  closed := by
    rintro part (hpart | ⟨root, hroot, hw⟩) inner hinner
    · exact .inl (hstock.closed part hpart inner hinner)
    · exact .inr ⟨root, hroot, (Within.of_mem hinner).trans hw⟩
  apart := heap.apart.mono h
  below part hpart := heap.below part (h hpart)

theorem insert (heap : IsHeap stock next) (head : Head R) {parts : List (Part R)}
    (h : ∀ part ∈ parts, part ∈ stock) :
    IsHeap (Insert.insert ⟨next, head, parts⟩ stock) (next + 1) where
  closed := by
    rintro part (rfl | hpart) inner hinner
    · exact .inr (h inner hinner)
    · exact .inr (heap.closed part hpart inner hinner)
  apart := by
    rintro first (rfl | hfirst) second (rfl | hsecond) heq
    · rfl
    · exact absurd heq.symm (heap.below second hsecond).ne
    · exact absurd heq (heap.below first hfirst).ne
    · exact heap.apart hfirst hsecond heq
  below := by
    rintro part (rfl | hpart)
    · exact Nat.lt_succ_self next
    · exact (heap.below part hpart).trans (Nat.lt_succ_self next)

end IsHeap

/-- What a heap has become when parts were built: these parts are in it, and what was not there
before stands on new serial numbers. -/
structure Growth (stock : Set (Part R)) (first : Nat) (built : List (Part R)) (next : Nat) :
    Prop where
  heap : IsHeap (stock ∪ contents built) next
  new : ∀ part ∈ contents built, part ∈ stock ∨ first ≤ part.serial
  le : first ≤ next

theorem Growth.old_or_new {stock : Set (Part R)} {first next : Nat} {built : List (Part R)}
    (h : Growth stock first built next) {part : Part R} (hpart : part ∈ stock ∪ contents built) :
    part ∈ stock ∨ first ≤ part.serial :=
  hpart.elim .inl (h.new part)

theorem Growth.trans {stock : Set (Part R)} {first middle last : Nat} {mid built : List (Part R)}
    (hstock : IsHeap stock first) (h : Growth stock first mid middle)
    (h' : Growth (stock ∪ contents mid) middle built last) : Growth stock first built last where
  heap := h'.heap.restrict hstock
    (Set.union_subset_union_left _ Set.subset_union_left)
  new part hpart := by
    rcases h'.new part hpart with (hmem | hmid) | hle
    · exact .inl hmem
    · exact h.new part hmid
    · exact .inr (h.le.trans hle)
  le := h.le.trans h'.le

namespace Build

/-- Over given parts, a construction only adds to the heap that holds them. -/
def Adds (given : Set (Part R)) (built : α → List (Part R)) (b : Build α) : Prop :=
  ∀ (stock : Set (Part R)) (next : Nat), given ⊆ stock → IsHeap stock next →
    Growth stock next (built (b next).1) (b next).2

theorem Adds.mono {given given' : Set (Part R)} {built : α → List (Part R)} {b : Build α}
    (h : Adds given built b) (hsub : given ⊆ given') : Adds given' built b :=
  fun stock next hgiven hstock => h stock next (hsub.trans hgiven) hstock

/-- Sequencing: what follows may use the parts that were built first. -/
theorem Adds.bind {given : Set (Part R)} {mid : α → List (Part R)} {built : β → List (Part R)}
    {b : Build α} {f : α → Build β} (h : Adds given mid b)
    (h' : ∀ a, Adds (given ∪ {part | part ∈ mid a}) built (f a)) :
    Adds given built (b >>= f) := by
  intro stock next hgiven hstock
  have hb := h stock next hgiven hstock
  have hmid : given ∪ {part | part ∈ mid (b next).1} ⊆ stock ∪ contents (mid (b next).1) :=
    Set.union_subset_union hgiven fun _ => mem_contents_of_mem
  exact hb.trans hstock (h' (b next).1 _ _ hmid hb.heap)

theorem Adds.pure {given : Set (Part R)} {built : α → List (Part R)} {a : α}
    (h : ∀ part ∈ built a, part ∈ given) : Adds given built (Pure.pure a) := by
  intro stock next hgiven hstock
  have hsub : contents (built a) ⊆ stock :=
    hstock.contents_subset fun part hmem => hgiven (h part hmem)
  refine ⟨?_, fun part hpart => .inl (hsub hpart), Nat.le_refl next⟩
  exact hstock.restrict hstock (Set.union_subset Set.Subset.rfl hsub)

theorem Adds.part {given : Set (Part R)} (head : Head R) {parts : List (Part R)}
    (h : ∀ part ∈ parts, ∃ source ∈ given, Within part source) :
    Adds given (fun built => [built]) (Build.part head parts) := by
  intro stock next hgiven hstock
  have hparts : ∀ part ∈ parts, part ∈ stock := by
    intro part hmem
    obtain ⟨source, hsource, hw⟩ := h part hmem
    exact hstock.within_mem (hgiven hsource) hw
  -- Within the new part stand the part itself and what was there before.
  have hnew : ∀ part ∈ contents [⟨next, head, parts⟩],
      part = ⟨next, head, parts⟩ ∨ part ∈ stock := by
    rintro part ⟨root, hroot, hw⟩
    rw [List.mem_singleton.mp hroot] at hw
    cases hw with
    | self => exact .inl rfl
    | inside hmem hw => exact .inr (hstock.within_mem (hparts _ hmem) hw)
  refine ⟨(hstock.insert head hparts).restrict hstock ?_, ?_, Nat.le_succ next⟩
  · exact Set.union_subset (Set.subset_insert _ _) hnew
  · intro part hpart
    rcases hnew part hpart with rfl | hmem
    · exact .inr (Nat.le_refl next)
    · exact .inl hmem

end Build

end SolidScript
