import SolidScript.Proofs.Heap.Equality
import SolidScript.Proofs.Session.Coherence
import SolidScript.Proofs.Session.Settled

/-!
# No answer tells equal parts apart

What is asked about parts depends on kinds, on written arguments and on labels, and all of these
are respected by equality (`Script.rule_respected`). So in a session equality of parts is an
equivalence, and equal parts have equal answers: texts and digests, or faults in their place,
depths, whether they lie in the plane, and what is found in them under a label
(`World.Run.equality`).
-/

namespace SolidScript

open SolidScript.Part

/-! ## Rules that respect equality -/

theorem Script.opening_respected : Head.Respected Script.opening := by
  intro head other halike
  unfold Script.opening
  rw [halike.kind, Script.arguments_eq_of_beq halike.args halike.named]

theorem Script.rule_respected : Head.Respected Script.rule := by
  intro head other halike
  funext texts
  rw [Script.rule, Script.rule, Script.opening_respected head other halike]

theorem Part.depthRule_respected : Head.Respected (depthRule (R := Float)) := fun _ _ _ => rfl

theorem Part.planarRule_respected : Head.Respected (planarRule (R := Float)) := by
  intro head other halike
  funext planar
  rw [planarRule, planarRule, halike.kind]

namespace World

variable {start final : World} {log : Log}

/-- Nothing that is asked about two parts of a heap tells them apart, whenever each is asked and
whatever is kept by then. -/
structure Agree (parts : Set (Part Float)) (log : Log) (a b : Part Float) : Prop where
  text : a.script = b.script
  script : ∀ result result', (.script a, result) ∈ log → (.script b, result') ∈ log →
    result = result'
  identity : ∀ result result', (.identity a, result) ∈ log → (.identity b, result') ∈ log →
    result = result'
  depth : ∀ session session' : Session, session.Measured parts → session'.Measured parts →
    (Session.depth a session).1 = (Session.depth b session').1
  isPlanar : ∀ session session' : Session, session.Measured parts → session'.Measured parts →
    (Session.isPlanar a session).1 = (Session.isPlanar b session').1
  /-- The label is found in both or in none. -/
  find : ∀ label, (∃ found other, a.find label = .ok found ∧ b.find label = .ok other ∧
      found == other) ∨
    a.find label = .error (.noSuchLabel label) ∧ b.find label = .error (.noSuchLabel label)

/-- Equality of parts is an equivalence on the parts that a run has, and the answers given in the
run agree on equal parts. -/
theorem Run.equality (hfresh : start.IsFresh) (run : Run start log final) :
    (∀ a ∈ final.parts, a == a) ∧
      (∀ a ∈ final.parts, ∀ b ∈ final.parts, a == b → b == a) ∧
      (∀ a ∈ final.parts, ∀ b ∈ final.parts, ∀ c ∈ final.parts, a == b → b == c → a == c) ∧
      ∀ a ∈ final.parts, ∀ b ∈ final.parts, a == b → Agree final.parts log a b := by
  obtain ⟨hanswers, hsound, -⟩ := run.kept hfresh.sound
  have heap := hsound.heap
  refine ⟨fun _ _ => BEq.rfl, fun _ _ _ _ => Part.beq_symm,
    fun a ha b hb c hc => heap.beq_trans ha hb hc, fun a ha b hb h => ?_⟩
  have htext : a.script = b.script := heap.fold_eq_of_beq Script.rule_respected ha hb h
  have hdepth : a.depth = b.depth := heap.fold_eq_of_beq Part.depthRule_respected ha hb h
  have hplanar : a.isPlanar = b.isPlanar := heap.fold_eq_of_beq Part.planarRule_respected ha hb h
  exact {
    text := htext
    script := fun result result' hfirst hsecond =>
      (hanswers _ hfirst).trans (htext.trans (hanswers _ hsecond).symm)
    identity := fun result result' hfirst hsecond =>
      (hanswers _ hfirst).trans
        ((congrArg (Except.map Digest.ofText) htext).trans (hanswers _ hsecond).symm)
    depth := fun session session' hmeasured hmeasured' => by
      rw [(hmeasured.depth_eq heap ha).1, (hmeasured'.depth_eq heap hb).1, hdepth]
    isPlanar := fun session session' hmeasured hmeasured' => by
      rw [(hmeasured.isPlanar_eq heap ha).1, (hmeasured'.isPlanar_eq heap hb).1, hplanar]
    find := heap.find_of_beq ha hb h }

/-! ## Zeros over an undefined number -/

/-- A cube of undefined size, which is equal to itself though its argument is not. -/
def formless : Part Float := ⟨0, .ofKind .cube [.real Number.undefined] ∅ .plain, []⟩

def raised : Part Float := ⟨1, .ofKind .translate [.real 0] ∅ .plain, [formless]⟩

/-- The same part below, and the other zero. -/
def lowered : Part Float := ⟨2, .ofKind .translate [.real (-0)] ∅ .plain, [formless]⟩

def begun : World := initial.build (Build.plain .cube [] [.real Number.undefined] ∅)

def lifted : World := begun.build (Build.plain .translate [formless] [.real 0] ∅)

def zeros : World := lifted.build (Build.plain .translate [formless] [.real (-0)] ∅)

theorem run_zeros : Run initial [] zeros := by
  have hcube : Builder initial.parts (Build.plain .cube [] [.real Number.undefined] ∅) :=
    .plain .cube _ ∅ (List.forall_mem_nil _)
  have hmoved : ∀ {given : Set (Part Float)} (value : Value Float), formless ∈ given →
      Builder given (Build.plain .translate [formless] [value] ∅) := fun value hmem =>
    .plain .translate [value] ∅ (List.forall_mem_singleton.mpr hmem)
  have hformless : formless ∈ begun.parts := .inr (mem_contents_of_mem List.mem_cons_self)
  have hkept : formless ∈ lifted.parts := .inl hformless
  exact .step (.build hcube) (.step (.build (hmoved (.real 0) hformless))
    (.step (.build (hmoved (.real (-0)) hkept)) (.done zeros)))

/-- Moves by the two zeros are equal parts and get one answer, which is a fault, though none of
their parts has an argument that is equal to itself. -/
theorem Run.equality_zeros :
    ∃ final first second, Run initial [(.script raised, first), (.script lowered, second)] final ∧
      (raised == lowered) = true ∧ raised.serial ≠ lowered.serial ∧
      (formless.head.args == formless.head.args) = false ∧ first = second := by
  have hraised : raised ∈ zeros.parts :=
    .inl (.inr (mem_contents_of_mem List.mem_cons_self))
  have hlowered : lowered ∈ zeros.parts := .inr (mem_contents_of_mem List.mem_cons_self)
  have hequal : (raised == lowered) = true := by decide
  have hasked : Run zeros [(.script raised, _), (.script lowered, _)] _ :=
    .ask hraised (.ask hlowered (.done _))
  have run := run_zeros.trans hasked
  obtain ⟨-, -, -, hagree⟩ := Run.equality initial_isFresh run
  refine ⟨_, _, _, run, hequal, by decide, by decide, ?_⟩
  exact (hagree raised hraised lowered hlowered hequal).script _ _ List.mem_cons_self
    (List.mem_cons_of_mem _ List.mem_cons_self)

end World

end SolidScript
