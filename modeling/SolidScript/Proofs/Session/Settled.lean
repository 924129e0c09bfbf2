import SolidScript.Proofs.Script.Cells
import SolidScript.Session.Basic

/-!
# Values from memory

A memory that is settled for a part has the value of the fold for it, if the values it had were
right. Working off the agenda of a part leaves the rest of the agenda and settles the part
(`Memo.settle_enter`), by induction over the part: the parts below it that lack a value are settled
first, and then all of them have one. So a session that keeps depths answers with the depths of
parts, and one that keeps which parts lie in the plane with that (`Session.Measured.depth_eq`,
`Session.Measured.isPlanar_eq`).
-/

namespace SolidScript

open SolidScript.Part

def Part.Visit.part {R : Type} : Visit R → Part R
  | enter part | leave part => part

namespace Memo

variable {α : Type} {rule : Head Float → List α → α} {missing : α} {parts : Set (Part Float)}

theorem mem_reverse_lacking (memo : Memo α) {inner : Part Float} {parts : List (Part Float)} :
    inner ∈ (memo.lacking parts).reverse ↔ inner ∈ parts ∧ memo.get? inner = none := by
  rw [List.mem_reverse, lacking, List.mem_filter, Option.isNone_iff_eq_none]

/-- A later memory has right values, those of an earlier one and those of some parts. -/
structure Settles (rule : Head Float → List α → α) (parts : Set (Part Float))
    (settled : List (Part Float)) (before after : Memo α) : Prop where
  holds : after.Holds parts (fold rule)
  keeps : after.Keeps before
  filled : ∀ part ∈ settled, after.get? part = some (part.fold rule)

/-- The agenda of a part is worked off before the rest, and settles the part. -/
def Settling (rule : Head Float → List α → α) (missing : α) (parts : Set (Part Float))
    (part : Part Float) : Prop :=
  ∀ (rest : List (Visit Float)) (memo : Memo α), memo.Holds parts (fold rule) →
    ∃ after, settle rule missing (.enter part :: rest) memo = settle rule missing rest after ∧
      Settles rule parts [part] memo after

theorem settle_enters {entered : List (Part Float)} (rest : List (Visit Float))
    (h : ∀ part ∈ entered, Settling rule missing parts part) {memo : Memo α}
    (holds : memo.Holds parts (fold rule)) :
    ∃ after, settle rule missing (entered.map .enter ++ rest) memo =
        settle rule missing rest after ∧ Settles rule parts entered memo after := by
  induction entered generalizing memo with
  | nil => exact ⟨memo, rfl, holds, .refl memo, List.forall_mem_nil _⟩
  | cons part entered ih =>
    obtain ⟨hpart, hentered⟩ := List.forall_mem_cons.mp h
    obtain ⟨middle, hmiddle, hfirst⟩ := hpart (entered.map .enter ++ rest) memo holds
    obtain ⟨after, hafter, hothers⟩ := ih hentered hfirst.holds
    refine ⟨after, hmiddle.trans hafter, hothers.holds, hfirst.keeps.trans hothers.keeps, ?_⟩
    refine List.forall_mem_cons.mpr ⟨?_, hothers.filled⟩
    exact hothers.keeps part _ (hfirst.filled part List.mem_cons_self)

theorem settle_leave {part : Part Float} (rest : List (Visit Float)) {memo : Memo α}
    (hbelow : ∀ inner ∈ part.parts, memo.get? inner = some (inner.fold rule)) :
    settle rule missing (.leave part :: rest) memo =
      settle rule missing rest (memo.fill part (part.fold rule)) := by
  have hvalues : (part.parts.map fun inner => (memo.get? inner).getD missing) =
      part.parts.map (fold rule) :=
    List.map_congr_left fun inner hinner => by rw [hbelow inner hinner, Option.getD_some]
  rw [settle, hvalues, fold_eq]

theorem settle_enter {next : Nat} (heap : IsHeap parts next) (part : Part Float) :
    part ∈ parts → Settling rule missing parts part := by
  induction part using Part.induction with
  | step part ih =>
    intro hpart rest memo holds
    cases hget : memo.get? part with
    | some kept =>
      refine ⟨memo, by rw [settle, hget], holds, .refl memo, ?_⟩
      refine List.forall_mem_singleton.mpr ?_
      rw [hget, holds part hpart kept hget]
    | none =>
      have hsettling : ∀ inner ∈ (memo.lacking part.parts).reverse,
          Settling rule missing parts inner := by
        intro inner hinner
        have hmem := (memo.mem_reverse_lacking.mp hinner).1
        exact ih inner hmem (heap.closed part hpart inner hmem)
      obtain ⟨after, hafter, hsettles⟩ := settle_enters (.leave part :: rest) hsettling holds
      -- A part below was kept before or has been settled now.
      have hbelow : ∀ inner ∈ part.parts, after.get? inner = some (inner.fold rule) := by
        intro inner hinner
        cases hkept : memo.get? inner with
        | none =>
          exact hsettles.filled inner (memo.mem_reverse_lacking.mpr ⟨hinner, hkept⟩)
        | some kept =>
          rw [hsettles.keeps inner kept hkept,
            holds inner (heap.closed part hpart inner hinner) kept hkept]
      refine ⟨after.fill part (part.fold rule), ?_, ?_, ?_, ?_⟩
      · rw [settle, hget, descend, expand, hafter, settle_leave rest hbelow]
      · exact hsettles.holds.fill heap.apart hpart
      · exact hsettles.keeps.trans (keeps_fill after part _)
      · exact List.forall_mem_singleton.mpr (hsettles.holds.get?_fill_self hpart)

/-- The value that a memory with right values gives for a part is that of the fold, and its values
stay right and stay there. -/
theorem value_eq (missing : α) {next : Nat} (heap : IsHeap parts next) {part : Part Float}
    (hpart : part ∈ parts) {memo : Memo α} (holds : memo.Holds parts (fold rule)) :
    (memo.value rule missing part).1 = part.fold rule ∧
      Settles rule parts [part] memo (memo.value rule missing part).2 := by
  have hsettling : Settling rule missing parts part := settle_enter heap part hpart
  obtain ⟨after, hafter, hsettles⟩ := hsettling [] memo holds
  have hsettle : settle rule missing [.enter part] memo = after := by
    rw [hafter, settle]
  rw [value, hsettle]
  refine ⟨?_, hsettles⟩
  show (after.get? part).getD missing = part.fold rule
  rw [hsettles.filled part List.mem_cons_self, Option.getD_some]

/-- Values are kept only for parts that were on the agenda, or stand below such parts. -/
theorem settle_among {next : Nat} (heap : IsHeap parts next) {agenda : List (Visit Float)}
    {memo : Memo α} (hagenda : ∀ visit ∈ agenda, visit.part ∈ parts) (among : memo.Among parts) :
    (settle rule missing agenda memo).Among parts := by
  match agenda with
  | [] =>
    rw [settle]
    exact among
  | .enter part :: rest =>
    obtain ⟨hpart, hrest⟩ := List.forall_mem_cons.mp hagenda
    rw [settle]
    split
    · exact settle_among heap hrest among
    · refine settle_among heap (fun visit hvisit => ?_) among
      rcases List.mem_append.mp hvisit with hvisit | hvisit
      · obtain ⟨inner, hinner, rfl⟩ := List.mem_map.mp hvisit
        exact heap.closed part hpart inner (memo.mem_reverse_lacking.mp hinner).1
      · rcases List.mem_cons.mp hvisit with rfl | hvisit
        · exact hpart
        · exact hrest visit hvisit
  | .leave part :: rest =>
    obtain ⟨hpart, hrest⟩ := List.forall_mem_cons.mp hagenda
    rw [settle]
    exact settle_among heap hrest (among.fill hpart _)
termination_by agendaWeight agenda
decreasing_by
  · simp [Visit.weight, size_eq part]
  · exact agendaWeight_descend memo part rest
  · exact agendaWeight_leave part rest

end Memo

namespace Session

/-- What a session keeps of the depths of parts, and of which of them lie in the plane, is right. -/
structure Measured (session : Session) (parts : Set (Part Float)) : Prop where
  depths : session.depths.Holds parts Part.depth
  planar : session.planar.Holds parts Part.isPlanar

namespace Measured

variable {session : Session} {parts : Set (Part Float)} {next : Nat}
  (h : session.Measured parts) (heap : IsHeap parts next) {part : Part Float} (hpart : part ∈ parts)

include h heap hpart

theorem depth_eq :
    (Session.depth part session).1 = part.depth ∧
      (Session.depth part session).2.Measured parts := by
  obtain ⟨hvalue, hsettles⟩ := Memo.value_eq 0 heap hpart h.depths
  exact ⟨hvalue, hsettles.holds, h.planar⟩

theorem isPlanar_eq :
    (Session.isPlanar part session).1 = part.isPlanar ∧
      (Session.isPlanar part session).2.Measured parts := by
  obtain ⟨hvalue, hsettles⟩ := Memo.value_eq false heap hpart h.planar
  exact ⟨hvalue, h.depths, hsettles.holds⟩

end Measured

end Session

end SolidScript
