import SolidScript.Proofs.Script.Calls
import SolidScript.Script.Writer

/-!
# Writing on a heap

On a heap a writer that keeps texts gives what the full expansion gives. `HoldsTexts` is the
invariant: a text that is kept is the text of its part, and with it the texts of all parts that
were entered for it are kept. Under it the work of a writer on a part that has no text yet is the
work on the parts it enters, in order, and then one more text (`Writer.write_of_below`).
-/

namespace SolidScript

open SolidScript.Part

/-! ## The parts that are entered -/

namespace Part

/-- Parts in order up to the first that cannot be written, that one included. -/
def upToFault : List (Part Float) → List (Part Float)
  | [] => []
  | part :: rest =>
    match part.script with
    | .error _ => [part]
    | .ok _ => part :: upToFault rest

/-- The parts right below a part that are entered when it is written: none when its own arguments
cannot be written. -/
def entered (part : Part Float) : List (Part Float) :=
  match Script.opening part.head with
  | .error _ => []
  | .ok _ => upToFault part.parts

theorem upToFault_cons_ok {part : Part Float} {text : String} (h : part.script = .ok text)
    (rest : List (Part Float)) : upToFault (part :: rest) = part :: upToFault rest := by
  rw [upToFault, h]

theorem upToFault_cons_error {part : Part Float} {fault : Fault} (h : part.script = .error fault)
    (rest : List (Part Float)) : upToFault (part :: rest) = [part] := by
  rw [upToFault, h]

theorem mem_of_mem_upToFault {part : Part Float} {parts : List (Part Float)}
    (h : part ∈ upToFault parts) : part ∈ parts := by
  induction parts with
  | nil => exact h
  | cons first rest ih =>
    rw [upToFault] at h
    split at h
    · exact List.mem_singleton.mp h ▸ List.mem_cons_self
    · rcases List.mem_cons.mp h with rfl | h
      · exact List.mem_cons_self
      · exact List.mem_cons_of_mem _ (ih h)

theorem mem_of_mem_entered {inner part : Part Float} (h : inner ∈ part.entered) :
    inner ∈ part.parts := by
  unfold entered at h
  split at h
  · exact absurd h List.not_mem_nil
  · exact mem_of_mem_upToFault h

theorem upToFault_of_ok {parts : List (Part Float)}
    (h : ∀ part ∈ parts, ∃ text, part.script = .ok text) : upToFault parts = parts := by
  induction parts with
  | nil => rfl
  | cons part rest ih =>
    obtain ⟨⟨text, hpart⟩, hrest⟩ := List.forall_mem_cons.mp h
    rw [upToFault_cons_ok hpart, ih hrest]

/-- A part with a text has its arguments written and entered all parts below it, and these have
texts. -/
theorem entered_of_script_ok {part : Part Float} {text : String} (h : part.script = .ok text) :
    part.entered = part.parts ∧ ∀ inner ∈ part.parts, ∃ text, inner.script = .ok text := by
  obtain ⟨call, texts, hcall, hinner, -⟩ := script_ok h
  have hok : ∀ inner ∈ part.parts, ∃ text, inner.script = .ok text := fun inner hmem =>
    (Fault.exists_of_collect hinner inner hmem).imp fun _ => And.right
  unfold entered
  rw [hcall]
  exact ⟨upToFault_of_ok hok, hok⟩

end Part

/-! ## Memories of texts -/

/-- A later memory still has every value of an earlier one. -/
def Memo.Keeps {α : Type} (later earlier : Memo α) : Prop :=
  ∀ (part : Part Float) (value : α), earlier.get? part = some value → later.get? part = some value

namespace Memo

variable {α : Type}

@[simp] theorem get?_empty (part : Part Float) : (∅ : Memo α).get? part = none :=
  Std.HashMap.getElem?_empty

theorem Keeps.refl (memo : Memo α) : memo.Keeps memo := fun _ _ h => h

theorem Keeps.trans {first second third : Memo α} (h : second.Keeps first)
    (h' : third.Keeps second) : third.Keeps first :=
  fun part value hget => h' part value (h part value hget)

theorem Keeps.isSome {later earlier : Memo α} (h : later.Keeps earlier) {part : Part Float}
    (hsome : (earlier.get? part).isSome) : (later.get? part).isSome := by
  obtain ⟨value, hvalue⟩ := Option.isSome_iff_exists.mp hsome
  rw [h part value hvalue]
  rfl

theorem keeps_fill (memo : Memo α) (part : Part Float) (value : α) :
    (memo.fill part value).Keeps memo := by
  intro other kept hget
  rw [get?_fill, hget, Option.some_or]

theorem get?_fill_self {memo : Memo α} {part : Part Float} (h : memo.get? part = none)
    (value : α) : (memo.fill part value).get? part = some value := by
  rw [get?_fill, h, Option.none_or, if_pos rfl]

theorem isSome_get?_fill_self (memo : Memo α) (part : Part Float) (value : α) :
    ((memo.fill part value).get? part).isSome := by
  rw [get?_fill, if_pos rfl, Option.isSome_or]
  simp

theorem isSome_get?_fill {memo : Memo α} {part other : Part Float} {value : α}
    (h : ((memo.fill part value).get? other).isSome) :
    (memo.get? other).isSome ∨ other.serial = part.serial := by
  rw [get?_fill, Option.isSome_or, Bool.or_eq_true] at h
  refine h.imp_right fun hif => ?_
  by_contra hne
  rw [if_neg hne] at hif
  cases hif

/-- Values are kept under the serial numbers of some parts only. -/
def Among (memo : Memo α) (parts : Set (Part Float)) : Prop :=
  ∀ part : Part Float, (memo.get? part).isSome → ∃ owner ∈ parts, owner.serial = part.serial

namespace Among

variable {parts : Set (Part Float)} {memo : Memo α}

theorem empty (parts : Set (Part Float)) : (∅ : Memo α).Among parts := by
  intro part h
  rw [get?_empty] at h
  cases h

theorem mono {more : Set (Part Float)} (h : memo.Among parts) (hsub : parts ⊆ more) :
    memo.Among more := by
  intro part hsome
  obtain ⟨owner, howner, hserial⟩ := h part hsome
  exact ⟨owner, hsub howner, hserial⟩

theorem fill (h : memo.Among parts) {part : Part Float} (hpart : part ∈ parts) (value : α) :
    (memo.fill part value).Among parts := by
  intro other hsome
  rcases isSome_get?_fill hsome with hsome | hserial
  · exact h other hsome
  · exact ⟨part, hpart, hserial.symm⟩

theorem get?_new {next : Nat} (h : memo.Among parts) (heap : IsHeap parts next)
    {part : Part Float} (hnew : next ≤ part.serial) : memo.get? part = none := by
  by_contra hsome
  obtain ⟨owner, howner, hserial⟩ := h part (Option.isSome_iff_ne_none.mpr hsome)
  have := heap.below owner howner
  omega

end Among

/-- What is kept for a part is its value. -/
def Holds (memo : Memo α) (parts : Set (Part Float)) (value : Part Float → α) : Prop :=
  ∀ part ∈ parts, ∀ kept, memo.get? part = some kept → kept = value part

namespace Holds

variable {parts : Set (Part Float)} {memo : Memo α} {value : Part Float → α}

theorem empty (parts : Set (Part Float)) (value : Part Float → α) :
    (∅ : Memo α).Holds parts value := by
  intro part _ kept hget
  rw [get?_empty] at hget
  cases hget

theorem fill (h : memo.Holds parts value) (hapart : Set.InjOn Part.serial parts)
    {part : Part Float} (hpart : part ∈ parts) :
    (memo.fill part (value part)).Holds parts value := by
  intro other hother kept hget
  cases hold : memo.get? other with
  | some earlier =>
    rw [memo.keeps_fill part _ other earlier hold] at hget
    exact h other hother kept (hold.trans hget)
  | none =>
    rw [get?_fill, hold, Option.none_or] at hget
    split at hget
    · rename_i hserial
      rw [hapart hother hpart hserial]
      exact (Option.some.inj hget).symm
    · cases hget

theorem grow {next later : Nat} (h : memo.Holds parts value) (hamong : memo.Among parts)
    (heap : IsHeap parts next) {built : List (Part Float)}
    (growth : Growth parts next built later) : memo.Holds (parts ∪ contents built) value := by
  intro part hpart kept hget
  rcases growth.old_or_new hpart with hold | hnew
  · exact h part hold kept hget
  · rw [hamong.get?_new heap hnew] at hget
    cases hget

theorem get?_fill_self (h : memo.Holds parts value) {part : Part Float} (hpart : part ∈ parts) :
    (memo.fill part (value part)).get? part = some (value part) := by
  cases hget : memo.get? part with
  | none => exact Memo.get?_fill_self hget _
  | some kept => rw [memo.keeps_fill part _ part kept hget, h part hpart kept hget]

end Holds

end Memo

/-- The texts kept for a heap: each is the text of its part, the parts that were entered for it
have theirs, and none is kept for a part outside. -/
structure HoldsTexts (parts : Set (Part Float)) (texts : Memo ScriptResult) : Prop where
  value : texts.Holds parts script
  entered : ∀ part ∈ parts, (texts.get? part).isSome →
    ∀ inner ∈ part.entered, (texts.get? inner).isSome
  among : texts.Among parts

namespace HoldsTexts

variable {parts : Set (Part Float)} {texts : Memo ScriptResult}

theorem empty (parts : Set (Part Float)) : HoldsTexts parts ∅ where
  value := .empty parts _
  entered part _ h := by simp at h
  among := .empty parts

/-- The text of a part is kept once those of the parts it enters are. -/
theorem fill (h : HoldsTexts parts texts) (hapart : Set.InjOn Part.serial parts)
    {part : Part Float} (hpart : part ∈ parts)
    (hentered : ∀ inner ∈ part.entered, (texts.get? inner).isSome) :
    HoldsTexts parts (texts.fill part part.script) where
  value := h.value.fill hapart hpart
  entered other hother hsome inner hinner := by
    have hkept : (texts.get? inner).isSome := by
      rcases Memo.isSome_get?_fill hsome with hsome | hserial
      · exact h.entered other hother hsome inner hinner
      · exact hentered inner (hapart hother hpart hserial ▸ hinner)
    exact (texts.keeps_fill part part.script).isSome hkept
  among := h.among.fill hpart _

theorem grow {next later : Nat} (h : HoldsTexts parts texts) (heap : IsHeap parts next)
    {built : List (Part Float)} (growth : Growth parts next built later) :
    HoldsTexts (parts ∪ contents built) texts where
  value := h.value.grow h.among heap growth
  entered part hpart hsome := by
    rcases growth.old_or_new hpart with hold | hnew
    · exact h.entered part hold hsome
    · rw [h.among.get?_new heap hnew] at hsome
      cases hsome
  among := h.among.mono Set.subset_union_left

theorem below {next : Nat} (h : HoldsTexts parts texts) (heap : IsHeap parts next)
    {part inner : Part Float} (hpart : part ∈ parts) (hinner : inner ∈ part.parts) {text : String}
    (hget : texts.get? part = some (.ok text)) : ∃ text, texts.get? inner = some (.ok text) := by
  have hscript := h.value part hpart _ hget
  obtain ⟨hentered, hok⟩ := entered_of_script_ok hscript.symm
  have hsome := h.entered part hpart (by rw [hget]; rfl) inner (hentered ▸ hinner)
  obtain ⟨result, hresult⟩ := Option.isSome_iff_exists.mp hsome
  obtain ⟨text, htext⟩ := hok inner hinner
  refine ⟨text, ?_⟩
  rw [hresult, h.value inner (heap.closed part hpart inner hinner) result hresult, htext]

end HoldsTexts

/-! ## The work of a writer -/

namespace Writer

def visit (writer : Writer) (part : Part Float) : Writer := (write part writer).2

/-- The writer after it has kept the text of a part, which counts as built unless it is a
fault. -/
def settle (writer : Writer) (part : Part Float) : Writer where
  texts := writer.texts.fill part part.script
  built := writer.built + if part.script.isOk then 1 else 0
  found := writer.found

theorem write_eq (part : Part Float) (writer : Writer) :
    write part writer =
      match writer.texts.get? part with
      | some result => (result, { writer with found := writer.found + 1 })
      | none =>
        match Script.opening part.head with
        | .error fault =>
          (.error fault, { writer with texts := writer.texts.fill part (.error fault) })
        | .ok before =>
          match writeAll part.parts writer with
          | (.error fault, after) =>
            (.error fault, { after with texts := after.texts.fill part (.error fault) })
          | (.ok inner, after) =>
            let text := before ++ Script.body inner
            (.ok text,
              { after with
                texts := after.texts.fill part (.ok text)
                built := after.built + 1 }) := by
  cases part
  unfold write
  rfl

/-- What a writer has done when it has visited parts of a heap: their texts are kept, beside all
that were kept before. -/
structure Visited (parts : Set (Part Float)) (visited : List (Part Float))
    (before after : Writer) : Prop where
  holds : HoldsTexts parts after.texts
  keeps : after.texts.Keeps before.texts
  filled : ∀ part ∈ visited, after.texts.get? part = some part.script

/-- On texts of the heap, writing a part gives its full expansion. -/
def Writes (parts : Set (Part Float)) (part : Part Float) : Prop :=
  ∀ writer : Writer, HoldsTexts parts writer.texts →
    (write part writer).1 = part.script ∧ Visited parts [part] writer (writer.visit part)

variable {parts : Set (Part Float)} {writer : Writer}

theorem Visited.nil (h : HoldsTexts parts writer.texts) : Visited parts [] writer writer where
  holds := h
  keeps := .refl _
  filled := List.forall_mem_nil _

theorem Visited.append {front rest : List (Part Float)} {before middle after : Writer}
    (h : Visited parts front before middle) (h' : Visited parts rest middle after) :
    Visited parts (front ++ rest) before after where
  holds := h'.holds
  keeps := h.keeps.trans h'.keeps
  filled part hmem := by
    rcases List.mem_append.mp hmem with hmem | hmem
    · exact h'.keeps part _ (h.filled part hmem)
    · exact h'.filled part hmem

theorem writeAll_eq {list : List (Part Float)} (hlist : ∀ part ∈ list, Writes parts part)
    (h : HoldsTexts parts writer.texts) :
    writeAll list writer =
        (Fault.collect (list.map script), (upToFault list).foldl visit writer) ∧
      Visited parts (upToFault list) writer ((upToFault list).foldl visit writer) := by
  induction list generalizing writer with
  | nil => exact ⟨rfl, .nil h⟩
  | cons part rest ih =>
    obtain ⟨hpart, hothers⟩ := List.forall_mem_cons.mp hlist
    obtain ⟨hresult, hvisited⟩ := hpart writer h
    have hwrite : write part writer = (part.script, writer.visit part) := Prod.ext hresult rfl
    rw [writeAll, hwrite, List.map_cons]
    cases hscript : part.script with
    | error fault =>
      rw [upToFault_cons_error hscript]
      exact ⟨rfl, hvisited⟩
    | ok text =>
      obtain ⟨hall, hrest⟩ := ih hothers hvisited.holds
      rw [upToFault_cons_ok hscript, List.foldl_cons]
      refine ⟨?_, hvisited.append hrest⟩
      simp only [hall, Fault.collect]
      cases Fault.collect (rest.map script) <;> rfl

/-- The work on a part without a text: the work on the parts it enters, and then its own text. -/
theorem write_of_below {part : Part Float} (hbelow : ∀ inner ∈ part.parts, Writes parts inner)
    (h : HoldsTexts parts writer.texts) (hnone : writer.texts.get? part = none) :
    write part writer = (part.script, (part.entered.foldl visit writer).settle part) ∧
      Visited parts part.entered writer (part.entered.foldl visit writer) := by
  rw [write_eq, hnone]
  unfold settle entered
  have hscript := part.script_eq
  rw [Script.rule] at hscript
  cases hopening : Script.opening part.head with
  | error fault =>
    rw [hopening] at hscript
    rw [show part.script = .error fault from hscript]
    exact ⟨rfl, .nil h⟩
  | ok before =>
    obtain ⟨hall, hvisited⟩ := writeAll_eq hbelow h
    rw [hopening] at hscript
    simp only [hall]
    refine ⟨?_, hvisited⟩
    cases hinner : Fault.collect (part.parts.map script) with
    | error fault =>
      rw [hinner] at hscript
      rw [show part.script = .error fault from hscript]
      rfl
    | ok texts =>
      rw [hinner] at hscript
      rw [show part.script = .ok (before ++ Script.body texts) from hscript]
      rfl

/-- On a heap, a writer gives the full expansion of every part. -/
theorem writes {next : Nat} (heap : IsHeap parts next) (part : Part Float) :
    part ∈ parts → Writes parts part := by
  induction part using Part.induction with
  | step part ih =>
    intro hpart writer h
    have hbelow : ∀ inner ∈ part.parts, Writes parts inner :=
      fun inner hinner => ih inner hinner (heap.closed part hpart inner hinner)
    unfold visit
    -- A text that is kept is right already; else the parts entered are visited first.
    cases hget : writer.texts.get? part with
    | some result =>
      have hresult := h.value part hpart result hget
      rw [write_eq, hget]
      refine ⟨hresult, h, .refl _, fun other hmem => ?_⟩
      rw [List.mem_singleton.mp hmem]
      exact hresult ▸ hget
    | none =>
      obtain ⟨hwrite, hvisited⟩ := write_of_below hbelow h hget
      rw [hwrite]
      refine ⟨rfl, hvisited.holds.fill heap.apart hpart fun inner hinner => ?_, ?_, ?_⟩
      · rw [hvisited.filled inner hinner]
        rfl
      · exact hvisited.keeps.trans (Memo.keeps_fill _ _ _)
      · intro other hmem
        rw [List.mem_singleton.mp hmem]
        exact hvisited.holds.value.get?_fill_self hpart

end Writer

end SolidScript
