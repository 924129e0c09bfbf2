import SolidScript.Digest.Sha256
import SolidScript.Motion.Apply
import SolidScript.Script.Writer
import SolidScript.Settings.Basic

/-!
# Sessions

A session is the state of a run that builds parts and asks about them: the next serial number,
and the answers given so far, kept for each part. What a session answers is what the fold of the
part gives; keeping answers only saves work on parts that stand in many places.
-/

namespace SolidScript

open Space

/-- The next serial number and the answers kept. -/
structure Session where
  next : Nat
  texts : Memo ScriptResult
  identities : Memo ScriptResult
  depths : Memo Nat
  planar : Memo Bool
  extents : Memo (Except Fault (Extent Float))

/-- A step of a session. -/
abbrev Query := StateM Session

namespace Session

def initial : Session := ⟨0, ∅, ∅, ∅, ∅, ∅⟩

/-- Build parts on the next serial numbers. -/
def build {α : Type} (construction : Build α) : Query α := fun session =>
  let (result, next) := construction session.next
  (result, { session with next })

/-- A run of a writer, which starts with counts of zero and shares the texts of the session. -/
def writing {α : Type} (run : Writer → α × Writer) : Query (α × Writer) := fun session =>
  let texts := session.texts
  let (result, writer) := run (Writer.on texts)
  ((result, writer), { session with texts := writer.texts })

def script (part : Part Float) : Query ScriptResult := do
  let (result, _) ← writing (Writer.write part)
  return result

/-- The texts of parts in turn, with the counts of one writer after each. -/
def series (parts : List (Part Float)) : Query (List (ScriptResult × Nat × Nat)) := do
  let (results, _) ← writing (Writer.writeEach parts)
  return results

def render (settings : Settings) (part : Part Float) : Query ScriptResult := do
  return (← script part).map settings.around

def identity (part : Part Float) : Query ScriptResult := do
  match (← get).identities.get? part with
  | some result => return result
  | none =>
    let result := (← script part).map Digest.ofText
    modify fun session => { session with identities := session.identities.fill part result }
    return result

def depth (part : Part Float) : Query Nat := fun session =>
  let (depth, depths) := session.depths.value Part.depthRule 0 part
  (depth, { session with depths })

/-- Whether a part is planar. The cells of all parts below are filled as well, also where an
extrusion, a projection or the first part that is not planar already decides; no answer shows
this, since a cell holds what the part would answer anyway. -/
def isPlanar (part : Part Float) : Query Bool := fun session =>
  let (answer, planar) := session.planar.value Part.planarRule false part
  (answer, { session with planar })

/-- The extent of a part, or why it has none. The cells of all parts below are filled as well, also
below a cube or a cylinder, whose own arguments decide, and behind the first fault; no answer shows
this either. -/
def extent (part : Part Float) : Query (Except Fault (Extent Float)) := fun session =>
  let (extent, extents) := session.extents.value Part.extentRule (.ok .unknown) part
  (extent, { session with extents })

/-- The parts of a model with their depths, deepest first. The walk needs the depths of the parts
below only. The depth of the part itself is settled too, which no answer shows: it is the same
whenever it is asked for. -/
def deepestFirst (part : Part Float) : Query (List (Part Float × Nat)) := do
  let _ ← depth part
  let depths := (← get).depths
  let depthOf (inner : Part Float) : Nat := (depths.get? inner).getD 0
  return (part.deepestFirst depthOf).map fun inner => (inner, depthOf inner)

/-- The part after a motion. The centroid is asked for only if the motion depends on it. -/
def apply (part : Part Float) (motion : Motion Float) : Query (Except Fault (Part Float)) := do
  if motion.move.centers then
    match ← extent part with
    | .error fault => return .error fault
    | .ok extent => return .ok (← build (part.applyFrom extent.centroid motion))
  else return .ok (← build (part.applyFrom 0 motion))

end Session

end SolidScript
