import SolidScript.Proofs.Heap.Builder
import SolidScript.Session.Basic

/-!
# Runs of a session

A world is a session with the parts built so far and the counts of any number of writers. It takes
a step when something is built from its parts, or when it is asked for the text, the digest or the
script of one of them; a writer that is asked goes on from its own counts. A run is a sequence of
steps, with a log of the questions asked and the answers given.
-/

namespace SolidScript

open SolidScript.Part Space

structure Counts where
  built : Nat
  found : Nat

/-- What can be asked about a part. -/
inductive Question where
  | script (part : Part Float)
  | identity (part : Part Float)
  | render (settings : Settings) (part : Part Float)
  /-- The text, asked of one of the writers. -/
  | serialize (writer : Nat) (part : Part Float)

namespace Question

def part : Question → Part Float
  | script part | identity part | render _ part | serialize _ part => part

/-- The answer without any memory: the full expansion of the part, or what is made of it. -/
def expansion : Question → ScriptResult
  | script part => part.script
  | identity part => part.script.map Digest.ofText
  | render settings part => settings.render part
  | serialize _ part => part.script

end Question

namespace Session

theorem apply_of_not_centers {motion : Motion Float} (h : motion.move.centers = false)
    (part : Part Float) (session : Session) :
    apply part motion session =
      (.ok (part.applyFrom 0 motion session.next).1,
        { session with next := (part.applyFrom 0 motion session.next).2 }) := by
  rw [apply, if_neg (h ▸ Bool.false_ne_true)]
  rfl

/-- A motion to the center asks for the extent first, and builds nothing where this is a fault. -/
theorem apply_of_centers {motion : Motion Float} (h : motion.move.centers = true)
    (part : Part Float) (session : Session) :
    apply part motion session =
      match extent part session with
      | (.error fault, asked) => (.error fault, asked)
      | (.ok extent, asked) =>
        (.ok (part.applyFrom extent.centroid motion asked.next).1,
          { asked with next := (part.applyFrom extent.centroid motion asked.next).2 }) := by
  rw [apply, if_pos h]
  simp only [bind, StateT.bind]
  obtain ⟨result, asked⟩ := extent part session
  cases result <;> rfl

end Session

/-- A session with its writers and the parts built so far. -/
structure World where
  session : Session
  writers : Nat → Counts
  parts : Set (Part Float)

abbrev Log := List (Question × ScriptResult)

namespace World

/-- A session that has written nothing, on a heap of parts. -/
structure IsUnwritten (world : World) : Prop where
  heap : IsHeap world.parts world.session.next
  texts : world.session.texts = ∅
  counts : world.writers = fun _ => ⟨0, 0⟩

/-- A session that has answered nothing, on a heap of parts. -/
structure IsFresh (world : World) : Prop extends IsUnwritten world where
  identities : world.session.identities = ∅

def build (world : World) (construction : Build (Part Float)) : World :=
  let (built, session) := Session.build construction world.session
  { world with session, parts := world.parts ∪ contents [built] }

/-- Move a part; nothing is built when the part has no centroid that the motion depends on. -/
def apply (world : World) (part : Part Float) (motion : Motion Float) : World :=
  match Session.apply part motion world.session with
  | (.ok moved, session) => { world with session, parts := world.parts ∪ contents [moved] }
  | (.error _, session) => { world with session }

/-- A writer as it stands, on the texts of the session. -/
def writer (world : World) (index : Nat) : Writer where
  texts := world.session.texts
  built := (world.writers index).built
  found := (world.writers index).found

def serialize (world : World) (index : Nat) (part : Part Float) : ScriptResult × World :=
  let (result, after) := Writer.write part (world.writer index)
  (result,
    { world with
      session := { world.session with texts := after.texts }
      writers := Function.update world.writers index ⟨after.built, after.found⟩ })

def query (world : World) (question : Query ScriptResult) : ScriptResult × World :=
  let (result, session) := question world.session
  (result, { world with session })

def ask (world : World) : Question → ScriptResult × World
  | .script part => world.query (Session.script part)
  | .identity part => world.query (Session.identity part)
  | .render settings part => world.query (Session.render settings part)
  | .serialize index part => world.serialize index part

/-- One step: something is built or moved, or a question is answered. -/
inductive Step (world : World) : Log → World → Prop where
  | build {construction : Build (Part Float)} :
    Builder world.parts construction → Step world [] (world.build construction)
  | apply {part : Part Float} (motion : Motion Float) :
    part ∈ world.parts → Step world [] (world.apply part motion)
  | ask {question : Question} : question.part ∈ world.parts →
    Step world [(question, (world.ask question).1)] (world.ask question).2

/-- Any number of steps. -/
inductive Run : World → Log → World → Prop where
  | done (world : World) : Run world [] world
  | step {world next final : World} {log rest : Log} :
    Step world log next → Run next rest final → Run world (log ++ rest) final

theorem Run.ask {world final : World} {rest : Log} {question : Question}
    (h : question.part ∈ world.parts) (run : Run (world.ask question).2 rest final) :
    Run world ((question, (world.ask question).1) :: rest) final :=
  .step (.ask h) run

theorem Run.trans {world middle final : World} {log rest : Log} (run : Run world log middle)
    (run' : Run middle rest final) : Run world (log ++ rest) final := by
  induction run with
  | done => exact run'
  | step hstep _ ih =>
    rw [List.append_assoc]
    exact .step hstep (ih run')

end World

end SolidScript
