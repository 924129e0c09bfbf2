import Mathlib.Algebra.BigOperators.Group.Finset.Basic
import SolidScript.Proofs.Script.Tally
import SolidScript.Proofs.Session.World

/-!
# Counts of a session

Any mix of writers at work on one session counts together what one writer would count
(`World.pooled`). From texts that are all missing, calls settle the parts that their walks visit,
each of them once, so that both totals are told by the roots alone (`World.serializeAll_totals`).
-/

namespace SolidScript

open SolidScript.Part

namespace World

variable {world : World} {writers : Finset Nat}

/-- The writers in one: the texts of the session, with the counts of all writers together. -/
def pooled (world : World) (writers : Finset Nat) : Writer where
  texts := world.session.texts
  built := ∑ index ∈ writers, (world.writers index).built
  found := ∑ index ∈ writers, (world.writers index).found

def serializeAll (world : World) (calls : List (Nat × Part Float)) : World :=
  calls.foldl (fun world call => (world.serialize call.1 call.2).2) world

theorem serializeAll_cons (world : World) (index : Nat) (part : Part Float)
    (rest : List (Nat × Part Float)) :
    world.serializeAll ((index, part) :: rest) = (world.serialize index part).2.serializeAll rest :=
  rfl

theorem writer_serialize (world : World) (index : Nat) (part : Part Float) :
    (world.serialize index part).2.writer index = (world.writer index).visit part := by
  simp only [writer, serialize, Writer.visit, Function.update_self]

theorem writeEach_eq (world : World) (index : Nat) (roots : List (Part Float)) :
    (Writer.writeEach roots (world.writer index)).2 =
      (world.serializeAll (roots.map (index, ·))).writer index := by
  induction roots generalizing world with
  | nil => rfl
  | cons root rest ih =>
    rw [List.map_cons, serializeAll_cons, ← ih, writer_serialize]
    rfl

theorem session_serializeAll (world : World) (calls : List (Nat × Part Float)) :
    (world.serializeAll calls).session =
      { world.session with texts := (world.serializeAll calls).session.texts } := by
  induction calls generalizing world with
  | nil => rfl
  | cons call rest ih =>
    obtain ⟨index, part⟩ := call
    rw [serializeAll_cons]
    exact ih (world.serialize index part).2

/-- A series of the session is what a writer that has counted nothing does in calls in turn. -/
theorem series_eq (world : World) {index : Nat} (h : world.writers index = ⟨0, 0⟩)
    (roots : List (Part Float)) :
    (Session.series roots world.session).2 =
      (world.serializeAll (roots.map (index, ·))).session := by
  have hwriter : world.writer index = Writer.on world.session.texts := by
    rw [writer, h]
    rfl
  have htexts := congrArg Writer.texts (world.writeEach_eq index roots)
  rw [hwriter] at htexts
  rw [session_serializeAll]
  exact congrArg (fun texts => { world.session with texts }) htexts

theorem sum_update (count : Counts → Nat) (counts : Nat → Counts) {index : Nat}
    (h : index ∈ writers) (after : Counts) :
    (∑ other ∈ writers, count (Function.update counts index after other)) + count (counts index) =
      (∑ other ∈ writers, count (counts other)) + count after := by
  rw [← Finset.add_sum_erase writers _ h, ← Finset.add_sum_erase writers _ h,
    Function.update_self]
  have hothers : ∀ other ∈ writers.erase index,
      count (Function.update counts index after other) = count (counts other) := by
    intro other hother
    rw [Function.update_of_ne (Finset.ne_of_mem_erase hother)]
  rw [Finset.sum_congr rfl hothers]
  omega

/-- What one writer settles is settled for all of them. -/
theorem tally_serialize (heap : IsHeap world.parts world.session.next)
    (holds : HoldsTexts world.parts world.session.texts) {index : Nat} (hindex : index ∈ writers)
    {part : Part Float} (hpart : part ∈ world.parts) :
    ∃ settled, Writer.Tally world.parts [part] settled (world.pooled writers)
      ((world.serialize index part).2.pooled writers) := by
  obtain ⟨settled, htally⟩ := Writer.tallies heap part hpart (world.writer index) holds
  have hbuilt := htally.built
  have hfound := htally.found
  have hsumBuilt := sum_update Counts.built world.writers hindex
    ⟨((world.writer index).visit part).built, ((world.writer index).visit part).found⟩
  have hsumFound := sum_update Counts.found world.writers hindex
    ⟨((world.writer index).visit part).built, ((world.writer index).visit part).found⟩
  refine ⟨settled, { htally with built := ?_, found := ?_ }⟩
  · simp only [pooled, serialize, writer, Writer.visit] at hbuilt hsumBuilt ⊢
    omega
  · simp only [pooled, serialize, writer, Writer.visit] at hfound hsumFound ⊢
    omega

theorem holds_serialize (heap : IsHeap world.parts world.session.next)
    (holds : HoldsTexts world.parts world.session.texts) (index : Nat) {part : Part Float}
    (hpart : part ∈ world.parts) :
    HoldsTexts world.parts (world.serialize index part).2.session.texts :=
  (Writer.writes heap part hpart (world.writer index) holds).2.holds

theorem tally_serializeAll (heap : IsHeap world.parts world.session.next)
    (holds : HoldsTexts world.parts world.session.texts) {calls : List (Nat × Part Float)}
    (hwriters : ∀ call ∈ calls, call.1 ∈ writers) (hparts : ∀ call ∈ calls, call.2 ∈ world.parts) :
    HoldsTexts world.parts (world.serializeAll calls).session.texts ∧
      ∃ settled, Writer.Tally world.parts (calls.map Prod.snd) settled (world.pooled writers)
        ((world.serializeAll calls).pooled writers) := by
  induction calls generalizing world with
  | nil => exact ⟨holds, [], .nil _ _⟩
  | cons call rest ih =>
    obtain ⟨hwriter, hwriters'⟩ := List.forall_mem_cons.mp hwriters
    obtain ⟨hpart, hparts'⟩ := List.forall_mem_cons.mp hparts
    obtain ⟨settled, htally⟩ := tally_serialize heap holds hwriter hpart
    have holds' := holds_serialize heap holds call.1 hpart
    obtain ⟨hfinal, others, hothers⟩ :=
      @ih (world.serialize call.1 call.2).2 heap holds' hwriters' hparts'
    exact ⟨hfinal, settled ++ others, htally.append hothers⟩

theorem pooled_of_isUnwritten (h : world.IsUnwritten) (writers : Finset Nat) :
    world.pooled writers = Writer.on ∅ := by
  rw [pooled, h.texts, h.counts]
  simp [Writer.on]

/-- What the walks of some roots alone tell about a writer that began with nothing: it keeps the
texts of the parts visited, has built those without a fault, and found again every further visit
of a root or of an entered part. -/
structure Totals (parts : Set (Part Float)) (roots : List (Part Float)) (after : Writer) :
    Prop where
  cells : ∀ part ∈ parts, (after.texts.get? part).isSome ↔ part ∈ visited roots
  built : after.built = ((visited roots).filter fun part => part.script.isOk).card
  found : after.found + (visited roots).card =
    roots.length + ∑ part ∈ visited roots, part.entered.length

theorem totals_of_tally {next : Nat} {parts : Set (Part Float)} {roots settled : List (Part Float)}
    {after : Writer} (heap : IsHeap parts next) (holds : HoldsTexts parts after.texts)
    (h : Writer.Tally parts roots settled (Writer.on ∅) after) : Totals parts roots after := by
  have hmem := h.mem_settled heap rfl holds
  classical
  have hvisited : visited roots = settled.toFinset := by
    ext part
    rw [List.mem_toFinset, hmem]
  refine ⟨fun part hpart => ?_, ?_, ?_⟩
  · rw [h.cells part hpart, hmem]
    simp [Writer.on]
  · rw [h.built, hvisited, ← List.toFinset_filter,
      List.toFinset_card_of_nodup (h.nodup.filter _), List.countP_eq_length_filter]
    exact Nat.zero_add _
  · rw [hvisited, List.toFinset_card_of_nodup h.nodup, List.sum_toFinset _ h.nodup, h.found,
      List.length_flatMap]
    show 0 + _ + _ = _
    rw [Nat.zero_add]

section Calls

variable {start : World} (hstart : start.IsUnwritten)

include hstart

theorem totals_serializeAll {calls : List (Nat × Part Float)}
    (hcalls : ∀ call ∈ calls, call.2 ∈ start.parts) (hwriters : ∀ call ∈ calls, call.1 ∈ writers) :
    Totals start.parts (calls.map Prod.snd) ((start.serializeAll calls).pooled writers) := by
  have holds : HoldsTexts start.parts start.session.texts := hstart.texts ▸ .empty _
  obtain ⟨hfinal, settled, htally⟩ := tally_serializeAll hstart.heap holds hwriters hcalls
  rw [pooled_of_isUnwritten hstart] at htally
  exact totals_of_tally hstart.heap hfinal htally

/-- Calls from a session that has written nothing: the parts that the walks of the roots visit
have their texts kept, those without a fault count as built, and every further visit counts as
found. The totals depend neither on the order of the calls nor on who is called. -/
theorem serializeAll_totals {calls : List (Nat × Part Float)}
    (hcalls : ∀ call ∈ calls, call.2 ∈ start.parts) (hwriters : ∀ call ∈ calls, call.1 ∈ writers) :
    let roots := calls.map Prod.snd
    let final := start.serializeAll calls
    (∀ part ∈ start.parts, (final.session.texts.get? part).isSome ↔ part ∈ visited roots) ∧
      ∑ index ∈ writers, (final.writers index).built =
        ((visited roots).filter fun part => part.script.isOk).card ∧
      ∑ index ∈ writers, (final.writers index).found + (visited roots).card =
        calls.length + ∑ part ∈ visited roots, part.entered.length ∧
      ∀ calls' : List (Nat × Part Float), (calls'.map Prod.snd).Perm roots →
        (∀ call ∈ calls', call.1 ∈ writers) →
        ∑ index ∈ writers, ((start.serializeAll calls').writers index).built =
            ∑ index ∈ writers, (final.writers index).built ∧
          ∑ index ∈ writers, ((start.serializeAll calls').writers index).found =
            ∑ index ∈ writers, (final.writers index).found := by
  intro roots final
  have totals := totals_serializeAll hstart hcalls hwriters
  have hlength : roots.length = calls.length := List.length_map _
  refine ⟨totals.cells, totals.built, hlength ▸ totals.found, fun calls' hperm hwriters' => ?_⟩
  have hcalls' : ∀ call ∈ calls', call.2 ∈ start.parts := by
    intro call hmem
    obtain ⟨other, hother, heq⟩ :=
      List.mem_map.mp (hperm.subset (List.mem_map_of_mem (f := Prod.snd) hmem))
    exact heq ▸ hcalls other hother
  have totals' := totals_serializeAll hstart hcalls' hwriters'
  have hvisited := visited_perm hperm
  refine ⟨?_, ?_⟩
  · exact (totals'.built.trans (by rw [hvisited])).trans totals.built.symm
  · have hfound := totals.found
    have hfound' := totals'.found
    rw [hvisited, hperm.length_eq] at hfound'
    exact Nat.add_right_cancel (hfound'.trans hfound.symm)

end Calls

def twin : Part Float := ⟨0, .ofKind .cube [] ∅ .plain, []⟩

def twins : Part Float := ⟨1, .ofKind .union [] ∅ .group, [twin, twin]⟩

/-- The two parts in a session that has written nothing. -/
def ofTwins : World := ⟨{ Session.initial with next := 2 }, fun _ => ⟨0, 0⟩, {twins, twin}⟩

theorem ofTwins_isUnwritten : ofTwins.IsUnwritten where
  heap := by
    have single : IsHeap (insert twin ∅) 1 := (IsHeap.empty 0).insert twin.head (by simp)
    rw [insert_empty_eq] at single
    exact single.insert twins.head (by simp)
  texts := rfl
  counts := rfl

theorem twins_ne_twin : twins ≠ twin := fun h => absurd (congrArg Part.serial h) (by decide)

/-- Of three calls of two writers, the first builds both texts and finds one again, and the others
find theirs. -/
theorem serializeAll_twins :
    let final := ofTwins.serializeAll [(0, twins), (1, twins), (0, twin)]
    ∑ index ∈ {0, 1}, (final.writers index).built = 2 ∧
      ∑ index ∈ {0, 1}, (final.writers index).found = 3 := by
  intro final
  have hcalls : ∀ call ∈ [(0, twins), (1, twins), (0, twin)], call.2 ∈ ofTwins.parts := by
    simp [ofTwins]
  have hwriters : ∀ call ∈ [(0, twins), (1, twins), (0, twin)], call.1 ∈ ({0, 1} : Finset Nat) := by
    simp
  obtain ⟨-, hbuilt, hfound, -⟩ := serializeAll_totals ofTwins_isUnwritten hcalls hwriters
  classical
  have hvisited : visited [twins, twins, twin] = {twins, twin} := by
    ext part
    have hwalk : twins.walk = [twins, twin, twin] := by rfl
    have hwalk' : twin.walk = [twin] := by rfl
    simp [hwalk, hwalk']
  have hok : ∀ part ∈ ({twins, twin} : Finset (Part Float)), part.script.isOk := by
    simp only [Finset.mem_insert, Finset.mem_singleton]
    rintro part (rfl | rfl) <;> rfl
  have hcard : ({twins, twin} : Finset (Part Float)).card = 2 := Finset.card_pair twins_ne_twin
  have hentered : ∑ part ∈ {twins, twin}, part.entered.length = 2 := Finset.sum_pair twins_ne_twin
  simp only [List.map_cons, List.map_nil, hvisited] at hbuilt hfound
  rw [Finset.filter_true_of_mem hok, hcard] at hbuilt
  rw [hcard, hentered] at hfound
  exact ⟨hbuilt, Nat.add_right_cancel hfound⟩

end World

end SolidScript
