import Mathlib.Logic.Relation
import SolidScript.Proofs.Extent.Faults
import SolidScript.Proofs.Motion.Stack
import SolidScript.Proofs.Session.Coherence
import SolidScript.Proofs.Session.Settled

/-!
# Extents in a session

Extents are kept like texts, faults among them. `World.Gauged` is the invariant: what is kept for a
part is its extent or its fault. So whatever was built, written or measured before, a part that is
measured has the fault of the first visible part with one, and so has a motion of it that brings its
centroid to zero; no other motion can fail (`World.extent_faults`).
-/

namespace SolidScript

open SolidScript.Part Space

namespace World

variable {start world next : World}

/-- A session that has measured nothing, on a heap of parts. -/
structure IsUnmeasured (world : World) : Prop where
  heap : IsHeap world.parts world.session.next
  extents : world.session.extents = ∅

def after {α : Type} (world : World) (query : Query α) : World :=
  { world with session := (query world.session).2 }

/-- One step of a session in which parts are measured as well. -/
inductive Advance (world : World) : World → Prop where
  | step {log : Log} {next : World} : Step world log next → Advance world next
  | extent {part : Part Float} : part ∈ world.parts →
    Advance world (world.after (Session.extent part))
  | depth {part : Part Float} : part ∈ world.parts →
    Advance world (world.after (Session.depth part))
  | isPlanar {part : Part Float} : part ∈ world.parts →
    Advance world (world.after (Session.isPlanar part))

theorem advance_plain (kind : Kind) {parts : List (Part Float)} (args : List (Value Float))
    (named : Named (Value Float)) (hparts : ∀ part ∈ parts, part ∈ world.parts) :
    Advance world (world.build (Build.plain kind parts args named)) :=
  .step (.build (.plain kind args named hparts))

/-- The parts form a heap, and what is kept of extents are the extents of its parts. -/
structure Gauged (world : World) : Prop where
  heap : IsHeap world.parts world.session.next
  extents : world.session.extents.Holds world.parts Part.extent
  among : world.session.extents.Among world.parts

theorem IsUnmeasured.gauged (h : world.IsUnmeasured) : world.Gauged where
  heap := h.heap
  extents := by
    rw [h.extents]
    exact .empty _ _
  among := by
    rw [h.extents]
    exact .empty _

namespace Gauged

variable (h : world.Gauged)

include h

/-- A part that is asked for its extent has it, whatever is kept. -/
theorem extent_eq {part : Part Float} (hpart : part ∈ world.parts) :
    (Session.extent part world.session).1 = part.extent ∧
      (world.after (Session.extent part)).Gauged := by
  obtain ⟨hvalue, hsettles⟩ := Memo.value_eq (.ok .unknown) h.heap hpart h.extents
  refine ⟨hvalue, h.heap, hsettles.holds, ?_⟩
  exact Memo.settle_among h.heap (List.forall_mem_singleton.mpr hpart) h.among

theorem build {construction : Build (Part Float)} (builder : Builder world.parts construction) :
    (world.build construction).Gauged := by
  have growth := builder.adds world.parts _ Set.Subset.rfl h.heap
  exact ⟨growth.heap, h.extents.grow h.among h.heap growth, h.among.mono Set.subset_union_left⟩

theorem apply {part : Part Float} (hpart : part ∈ world.parts) (motion : Motion Float) :
    (world.apply part motion).Gauged := by
  obtain ⟨extents, hextents, happlied⟩ := world.apply_eq part motion
  have asked : Gauged { world with session := { world.session with extents } } := by
    rcases hextents with rfl | rfl
    · exact h
    · exact (h.extent_eq hpart).2
  rcases happlied with hrefused | ⟨centroid, hmoved⟩
  · rw [hrefused]
    exact asked
  · rw [hmoved]
    exact asked.build (.apply centroid motion hpart)

theorem ask (question : Question) : (world.ask question).2.Gauged := by
  cases question with
  | script part => exact ⟨h.heap, h.extents, h.among⟩
  | render settings part => exact ⟨h.heap, h.extents, h.among⟩
  | serialize writer part => exact ⟨h.heap, h.extents, h.among⟩
  | identity part =>
    show (world.query (Session.identity part)).2.Gauged
    rw [query_identity]
    split
    · exact h
    · exact ⟨h.heap, h.extents, h.among⟩

theorem advance (step : Advance world next) : next.Gauged := by
  cases step with
  | step hstep =>
    cases hstep with
    | build builder => exact h.build builder
    | apply motion hpart => exact h.apply hpart motion
    | ask _ => exact h.ask _
  | extent hpart => exact (h.extent_eq hpart).2
  | depth _ => exact ⟨h.heap, h.extents, h.among⟩
  | isPlanar _ => exact ⟨h.heap, h.extents, h.among⟩

/-- A motion fails only if it brings the centroid to zero, and then as the extent does. -/
theorem of?_apply {part : Part Float} (hpart : part ∈ world.parts) (motion : Motion Float) :
    Fault.of? (Session.apply part motion world.session).1 =
      if motion.move.centers then Fault.of? part.extent else none := by
  cases hcenters : motion.move.centers with
  | false =>
    rw [Session.apply_of_not_centers hcenters]
    rfl
  | true =>
    rw [Session.apply_of_centers hcenters, ← (h.extent_eq hpart).1]
    obtain ⟨result, asked⟩ := Session.extent part world.session
    cases result <;> rfl

/-- A motion gives what it gives without a memory, on the same serial numbers. -/
theorem apply_eq {part : Part Float} (hpart : part ∈ world.parts) (motion : Motion Float) :
    ((Session.apply part motion world.session).1,
        (Session.apply part motion world.session).2.next) =
      (part.apply motion).run world.session.next := by
  rw [Part.run_apply, centroidFor]
  cases hcenters : motion.move.centers with
  | false =>
    rw [Session.apply_of_not_centers hcenters]
    rfl
  | true =>
    have hnext : (Session.extent part world.session).2.next = world.session.next := rfl
    rw [Session.apply_of_centers hcenters, ← (h.extent_eq hpart).1, ← hnext]
    obtain ⟨result, asked⟩ := Session.extent part world.session
    cases result <;> rfl

end Gauged

theorem IsUnmeasured.gauged_of_advances (hstart : start.IsUnmeasured)
    (steps : Relation.ReflTransGen Advance start world) : world.Gauged := by
  induction steps with
  | refl => exact hstart.gauged
  | tail _ step ih => exact ih.advance step

/-- In a session on any heap, after any number of steps, whatever is read off the extent of a part
(its box, its centroid, its size) fails exactly if a visible part has a fault of its own, with the
first such fault. Where it fails, every shift to the center on some axis fails with this fault, and
a motion that shifts to no center never fails. -/
theorem extent_faults (hstart : start.IsUnmeasured)
    (steps : Relation.ReflTransGen Advance start world) {part : Part Float}
    (hpart : part ∈ world.parts) :
    (∀ {α : Type} (read : Extent Float → α),
        part.FaultsFirst ((Session.extent part world.session).1.map read)) ∧
      (∀ fault, (Session.extent part world.session).1 = .error fault →
        ∀ x y z doubles, x.isCenter ∨ y.isCenter ∨ z.isCenter →
          (Session.apply part ⟨.shift x y z, doubles⟩ world.session).1 = .error fault) ∧
      ∀ motion : Motion Float, motion.move.centers = false →
        ∃ moved, (Session.apply part motion world.session).1 = .ok moved := by
  have gauged := hstart.gauged_of_advances steps
  refine ⟨fun read => ?_, fun fault hfault x y z doubles hcenter => ?_, fun motion hmotion => ?_⟩
  · refine Part.faultsFirst_of_of? ?_
    rw [Fault.of?_map, (gauged.extent_eq hpart).1]
  · have hcenters : (Motion.mk (.shift x y z) doubles).move.centers = true := by
      show (x.isCenter || y.isCenter || z.isCenter) = true
      simpa [or_assoc] using hcenter
    rw [← Fault.of?_eq_some, gauged.of?_apply hpart, if_pos hcenters, ← (gauged.extent_eq hpart).1,
      hfault, Fault.of?_error]
  · have hnone := gauged.of?_apply hpart motion
    rw [if_neg (by rw [hmotion]; exact Bool.false_ne_true)] at hnone
    cases hresult : (Session.apply part motion world.session).1 with
    | ok moved => exact ⟨moved, rfl⟩
    | error fault =>
      rw [hresult] at hnone
      cases hnone

/-! ## A fault that nobody sees -/

def socket : Part Float := ⟨0, .ofKind .cube [.text "big"] ∅ .plain, []⟩

def sleeve : Part Float :=
  ⟨1, .ofKind .cylinder [] (.ofList [("r", .int 1)]) .plain, [socket]⟩

def rim : Part Float :=
  ⟨2, .ofKind .offset [] (.ofList [("r", .text "wide")]) .plain, [sleeve]⟩

def joint : Part Float := ⟨3, .ofKind .difference [] ∅ .plain, [sleeve, rim]⟩

def withSocket : World := initial.build (Build.plain .cube [] [.text "big"] ∅)

def withSleeve : World :=
  withSocket.build (Build.plain .cylinder [socket] [] (.ofList [("r", .int 1)]))

def withRim : World :=
  withSleeve.build (Build.plain .offset [sleeve] [] (.ofList [("r", .text "wide")]))

def withJoint : World := withRim.build (Build.plain .difference [sleeve, rim] [] ∅)

theorem initial_isUnmeasured : initial.IsUnmeasured := ⟨.empty 0, rfl⟩

theorem sleeve_mem : sleeve ∈ withSleeve.parts :=
  .inr (mem_contents_of_mem List.mem_cons_self)

theorem advances_withJoint : Relation.ReflTransGen Advance initial withJoint := by
  have hsocket : socket ∈ withSocket.parts := .inr (mem_contents_of_mem List.mem_cons_self)
  have hrim : rim ∈ withRim.parts := .inr (mem_contents_of_mem List.mem_cons_self)
  have hboth : ∀ part ∈ [sleeve, rim], part ∈ withRim.parts :=
    List.forall_mem_cons.mpr ⟨.inl sleeve_mem, List.forall_mem_singleton.mpr hrim⟩
  exact .tail (.tail (.tail (.single (advance_plain .cube _ _ (List.forall_mem_nil _)))
    (advance_plain .cylinder _ _ (List.forall_mem_singleton.mpr hsocket)))
    (advance_plain .offset _ _ (List.forall_mem_singleton.mpr sleeve_mem)))
    (advance_plain .difference _ _ hboth)

/-- The outline has no radius, which is found after the sleeve was measured twice; the cube below
the sleeve has a fault as well, but is not looked at. -/
theorem firstFault_joint : joint.FirstFault rim (.notANumber .offset "r") := by
  have hsleeve : sleeve.head.fault? = none := rfl
  refine ⟨[sleeve, sleeve], [joint], rfl, fun other hother fault hfault => ?_, ?_⟩
  · have hother : other = sleeve := by simpa using hother
    rw [hother, ← Head.fault?_eq_some_iff, hsleeve] at hfault
    cases hfault
  · exact .radius rfl rfl rfl

/-- The joint fails with the fault of its rim, measured or brought to the center, and can be moved
otherwise. -/
theorem extent_faults_joint :
    Relation.ReflTransGen Advance initial withJoint ∧ joint ∈ withJoint.parts ∧
      (Session.extent joint withJoint.session).1.map Extent.box =
        .error (.notANumber .offset "r") ∧
      (Session.apply joint ⟨.shift (.by 1) .center (.by 0), true⟩ withJoint.session).1 =
        .error (.notANumber .offset "r") ∧
      ∃ moved, (Session.apply joint ⟨.shift (.by 1) (.by 2) (.by 0), true⟩ withJoint.session).1 =
        .ok moved := by
  have hjoint : joint ∈ withJoint.parts := .inr (mem_contents_of_mem List.mem_cons_self)
  obtain ⟨hfaults, hcenter, hmotion⟩ :=
    extent_faults initial_isUnmeasured advances_withJoint hjoint
  have hbox := ((hfaults Extent.box).eq_error_iff _).mpr ⟨rim, firstFault_joint⟩
  have hextent : (Session.extent joint withJoint.session).1 = .error (.notANumber .offset "r") := by
    rw [← Fault.of?_eq_some, ← Fault.of?_map Extent.box, hbox, Fault.of?_error]
  exact ⟨advances_withJoint, hjoint, hbox, hcenter _ hextent _ _ _ _ (.inr (.inl rfl)),
    hmotion _ rfl⟩

end World

end SolidScript
