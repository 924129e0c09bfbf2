import SolidScript.Proofs.Script.Unwritable
import SolidScript.Proofs.Session.Coherence

/-!
# Faults in a session

Faults are kept like texts, on every part that was entered for the text that failed. Whatever was
asked before, a part that is asked for its text has a fault exactly if a call within it is given
something that cannot be written, and then the fault is that of the first such thing in the order of
the text (`World.Run.faults`).
-/

namespace SolidScript

open SolidScript.Part

namespace World

variable {start final : World} {log : Log}

/-- The text of a part was asked for, in the session or of a writer. -/
def Answered (log : Log) (part : Part Float) (answer : ScriptResult) : Prop :=
  (.script part, answer) ∈ log ∨ ∃ writer, (.serialize writer part, answer) ∈ log

/-- In a run on any heap a part that was asked for its text had a fault if and only if a call within
it is given a number that is not finite or a bare name that is no identifier. The fault was that of
the first of these in the order of the text, and its message names that value alone. -/
theorem Run.faults (hfresh : start.IsFresh) (run : Run start log final) {part : Part Float}
    {answer : ScriptResult} (hanswered : Answered log part answer) :
    ((∃ fault, answer = .error fault) ↔
        ∃ scalar, part.Gives scalar ∧ scalar.IsUnwritable) ∧
      ∀ fault, answer = .error fault →
        ∃ scalar, part.FirstUnwritable scalar ∧ scalar.fault? = some fault ∧
          fault.message =
            "cannot serialize value " ++ scalar.inspect ++ " of type " ++ scalar.sort := by
  obtain ⟨hanswers, -, -⟩ := run.kept hfresh.sound
  have hanswer : answer = part.script := by
    rcases hanswered with hmem | ⟨writer, hmem⟩ <;> exact hanswers _ hmem
  subst hanswer
  refine ⟨part.exists_fault_iff, fun fault hfault => ?_⟩
  obtain ⟨scalar, hfirst, hscalar⟩ := Part.script_eq_error_iff.mp hfault
  exact ⟨scalar, hfirst, hscalar, Value.message_of_fault? hscalar⟩

/-! ## A fault below a glyph -/

/-- A cube of undefined width, with a note that no script could hold. -/
def vague : Part Float :=
  ⟨0, .ofKind .cube [.list [.int 1, .real Number.undefined]] (.ofList [("_note", .ident "1")])
    .plain, []⟩

/-- The same cube under a glyph, with an argument that no script could hold. -/
def marked : Part Float := ⟨1, .ofKind .highlight [.ident "2"] ∅ .plain, [vague]⟩

def started : World :=
  initial.build (Build.plain .cube [] [.list [.int 1, .real Number.undefined]]
    (.ofList [("_note", .ident "1")]))

def review : World := started.build (Build.plain .highlight [vague] [.ident "2"] ∅)

theorem vague_mem_started : vague ∈ started.parts :=
  .inr (mem_contents_of_mem List.mem_cons_self)

theorem run_review : Run initial [] review :=
  .step (.build (.plain .cube _ _ (List.forall_mem_nil _)))
    (.step (.build (.plain .highlight _ ∅ (List.forall_mem_singleton.mpr vague_mem_started)))
      (.done review))

theorem scalars_marked : marked.scalars = [.int 1, .real Number.undefined] := by
  rfl

/-- After the cube was asked for its text, the glyph over it fails with the fault of the width. -/
theorem Run.faults_marked :
    ∃ final first second,
      Run initial [(.script vague, first), (.serialize 0 marked, second)] final ∧
        (∃ fault, second = .error fault) ∧ ∀ fault, second = .error fault →
          fault.message = "cannot serialize value Float(NaN) of type float" := by
  have hvague : vague ∈ review.parts := .inl vague_mem_started
  have hmarked : marked ∈ review.parts := .inr (mem_contents_of_mem List.mem_cons_self)
  have hasked : Run review [(.script vague, _), (.serialize 0 marked, _)] _ :=
    .ask hvague (.ask hmarked (.done _))
  have run := run_review.trans hasked
  obtain ⟨hiff, hfaults⟩ := Run.faults initial_isFresh run
    (.inr ⟨0, List.mem_cons_of_mem _ List.mem_cons_self⟩)
  have hwidth : Value.IsUnwritable (.real Number.undefined) := by
    show Number.undefined.isFinite = false
    decide
  have hgives : marked.Gives (.real Number.undefined) := by
    rw [← Part.mem_scalars_iff hwidth.mem_scalars, scalars_marked]
    exact List.mem_cons_of_mem _ List.mem_cons_self
  refine ⟨_, _, _, run, hiff.mpr ⟨_, hgives, hwidth⟩, fun fault hfault => ?_⟩
  obtain ⟨scalar, ⟨before, after, hscalars, -, hunwritable⟩, -, hmessage⟩ := hfaults fault hfault
  have hmem : scalar ∈ [Value.int 1, .real Number.undefined] := by
    rw [← scalars_marked, hscalars]
    exact List.mem_append_right _ List.mem_cons_self
  rcases List.mem_cons.mp hmem with rfl | hmem
  · exact hunwritable.elim
  · rw [hmessage, List.mem_singleton.mp hmem]
    rfl

end World

end SolidScript
