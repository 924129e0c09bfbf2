import SolidScript.Proofs.Motion.Chain
import SolidScript.Proofs.Session.Coherence

/-!
# Replayed motions in a session

In every world that a session can reach, parts are composed as their roles say. There a part can
follow another one that was moved, or follow it first and be moved then, and
`World.follow_apply_iff` says when both give the same. It can also follow a path that has followed
another one, or follow one after the other, and both give the same if the path in the middle is not
forgotten (`World.follow_follow`).
-/

namespace SolidScript

open SolidScript.Part Space

namespace Session

/-- Move a path, and have a part follow it then. -/
def followMoved (target path : Part Float) (motion : Motion Float) :
    Query (Except Fault (Part Float)) := do
  match ← apply path motion with
  | .error fault => return .error fault
  | .ok moved => return .ok (← build (target.follow moved))

/-- Have a part follow a path, and move it then. -/
def moveFollowed (target path : Part Float) (motion : Motion Float) :
    Query (Except Fault (Part Float)) := do
  apply (← build (target.follow path)) motion

end Session

namespace World

variable {world next final : World} {log : Log}

def Composed (world : World) : Prop := ∀ part ∈ world.parts, part.Composed

theorem Composed.build (h : world.Composed) {construction : Build (Part Float)}
    (builder : Builder world.parts construction) : (world.build construction).Composed := by
  rintro part (hpart | ⟨root, hroot, hw⟩)
  · exact h part hpart
  · rw [List.mem_singleton.mp hroot] at hw
    exact (builder.composed h _).within hw

theorem Step.composed (h : world.Composed) (step : Step world log next) : next.Composed := by
  cases step with
  | build builder => exact h.build builder
  | @apply part motion hpart =>
    obtain ⟨extents, -, hrefused | ⟨centroid, hmoved⟩⟩ := world.apply_eq part motion
    · rw [hrefused]
      exact h
    · rw [hmoved]
      have h' : Composed { world with session := { world.session with extents } } := h
      exact h'.build (.apply centroid motion hpart)
  | @ask question _ => cases question <;> exact h

theorem Run.composed (h : world.Composed) (run : Run world log final) : final.Composed := by
  induction run with
  | done => exact h
  | step hstep _ ih => exact ih (hstep.composed h)

theorem initial_composed : initial.Composed := fun _ h => h.elim

theorem Sound.serial_followed_lt (h : world.Sound) {target path : Part Float}
    (htarget : target ∈ world.parts) (hpath : path ∈ world.parts) :
    (target.follow path world.session.next).1.serial <
      (target.follow path world.session.next).2 := by
  have growth := (Builder.follow htarget hpath).adds world.parts _ Set.Subset.rfl h.heap
  exact growth.heap.below _ (.inr (mem_contents_of_mem List.mem_cons_self))

/-- In every world that a session reaches, a motion that asks for no centroid can be replayed
with the path it was applied to, or applied after the path was replayed. Both give the same
structure, unless the motion doubles and does move, the path is an unlabelled union that was not
made by doubling, and its members go on with motions or put the target there another number of
times than once. -/
theorem follow_apply_iff (run : Run initial log world) {target path : Part Float}
    (htarget : target ∈ world.parts) (hpath : path ∈ world.parts) {motion : Motion Float}
    (hcenters : motion.move.centers = false) :
    ∃ first second, (Session.followMoved target path motion world.session).1 = .ok first ∧
      (Session.moveFollowed target path motion world.session).1 = .ok second ∧
      (first.bare = second.bare ↔
        (motion.doubles → ¬motion.move.isIdle 0 → path.IsForgotten → target.EndsOnce path)) := by
  obtain ⟨-, hsound, -⟩ := run.kept initial_isFresh.sound
  have hcomposed := run.composed initial_composed
  have hiff := bare_follow_applyFrom (hcomposed target htarget) (hcomposed path hpath) 0 motion
    (path.applyFrom 0 motion world.session.next).2 _ (hsound.heap.below path hpath)
    (hsound.serial_followed_lt htarget hpath)
  refine ⟨_, _, ?_, ?_, hiff⟩
  · simp only [Session.followMoved, bind, StateT.bind, Session.apply_of_not_centers hcenters]
    rfl
  · show (Session.apply (target.follow path world.session.next).1 motion
      { world.session with next := (target.follow path world.session.next).2 }).1 = _
    rw [Session.apply_of_not_centers hcenters]

/-! ## A doubled union -/

def block : Part Float := ⟨0, .ofKind .cube [] ∅ .plain, []⟩

def ball : Part Float := ⟨1, .ofKind .sphere [] ∅ .plain, []⟩

def pair : Part Float := ⟨2, .ofKind .union [] ∅ .group, [block, ball]⟩

def disc : Part Float := ⟨3, .ofKind .circle [] ∅ .plain, []⟩

/-- A world with a union of two parts and another part. -/
def workshop : World :=
  (((initial.build (Build.plain .cube [] [] ∅)).build (Build.plain .sphere [] [] ∅)).build
    (Build.groupAs .group .union [block, ball])).build (Build.plain .circle [] [] ∅)

theorem run_workshop : Run initial [] workshop := by
  have hnil : ∀ {given : Set (Part Float)}, ∀ part ∈ ([] : List (Part Float)), part ∈ given :=
    List.forall_mem_nil _
  have hdisc : ∀ {given : Set (Part Float)}, Builder given (Build.plain .circle [] [] ∅) :=
    .plain .circle [] ∅ hnil
  refine .step (.build (.plain .cube [] ∅ hnil)) (.step (.build (.plain .sphere [] ∅ hnil)) ?_)
  refine .step (.build (.group (by decide) ?_)) (.step (.build hdisc) (.done _))
  intro part hmem
  rcases List.mem_cons.mp hmem with rfl | hmem
  · exact .inl (.inr (mem_contents_of_mem List.mem_cons_self))
  · rw [List.mem_singleton.mp hmem]
    exact .inr (mem_contents_of_mem List.mem_cons_self)

theorem pair_mem_workshop : pair ∈ workshop.parts :=
  .inl (.inr (mem_contents_of_mem List.mem_cons_self))

theorem disc_mem_workshop : disc ∈ workshop.parts := .inr (mem_contents_of_mem List.mem_cons_self)

/-- Where a union of two parts was scaled and kept, the disc that follows it stands twice beside
its scaled copy. -/
theorem doubled_pair_followed_twice :
    ∃ first second, Run initial [] workshop ∧ disc ∈ workshop.parts ∧ pair ∈ workshop.parts ∧
      (Move.doubling (.scale (.all (2 : Float)))).move.centers = false ∧
      (Session.followMoved disc pair (Move.doubling (.scale (.all 2))) workshop.session).1 =
        .ok first ∧
      (Session.moveFollowed disc pair (Move.doubling (.scale (.all 2))) workshop.session).1 =
        .ok second ∧
      first.bare ≠ second.bare := by
  refine ⟨_, _, run_workshop, disc_mem_workshop, pair_mem_workshop, rfl, rfl, rfl, fun heq => ?_⟩
  have hlength : 3 = 2 := congrArg (fun part => part.parts.length) heq
  exact absurd hlength (by decide)

/-- The union of two parts under a label. -/
def kit : Part Float := ⟨4, ⟨.union, [], ∅, some "kit", .group⟩, [block, ball]⟩

def lone : Part Float := ⟨5, .ofKind .union [] ∅ .group, [block]⟩

def bench : World :=
  (workshop.build (pair.relabel "kit")).build (Build.groupAs .group .union [block])

theorem block_mem_workshop : block ∈ workshop.parts :=
  .inl (.inl (.inl (.inr (mem_contents_of_mem List.mem_cons_self))))

theorem run_bench : Run initial [] bench := by
  have hblock : ∀ part ∈ [block], part ∈ workshop.parts ∪ contents [kit] :=
    List.forall_mem_singleton.mpr (.inl block_mem_workshop)
  exact run_workshop.trans (.step (.build (.relabel "kit" pair_mem_workshop))
    (.step (.build (.group (by decide) hblock)) (.done bench)))

/-- A part without parts, a labelled union and a union of one part, each scaled and kept, are
followed as if the disc had followed them first. -/
theorem doubled_kit_followed :
    ¬ball.IsForgotten ∧ ¬kit.IsForgotten ∧ lone.IsForgotten ∧ disc.EndsOnce lone ∧
      ∀ path ∈ [ball, kit, lone], ∃ first second,
        (Session.followMoved disc path (Move.doubling (.scale (.all 2))) bench.session).1 =
          .ok first ∧
        (Session.moveFollowed disc path (Move.doubling (.scale (.all 2))) bench.session).1 =
          .ok second ∧
        first.bare = second.bare := by
  have hball : ¬ball.IsForgotten := fun h => absurd h.1 (by decide)
  have hkit : ¬kit.IsForgotten := fun h => absurd h.1 (by decide)
  have hlone : lone.IsForgotten := ⟨by decide, nofun⟩
  have honce : disc.EndsOnce lone := ⟨List.forall_mem_singleton.mpr nofun, .inl rfl⟩
  refine ⟨hball, hkit, hlone, honce, fun path hmem => ?_⟩
  have hreplays : path ∈ bench.parts ∧ (path.IsForgotten → disc.EndsOnce path) := by
    simp only [List.mem_cons, List.not_mem_nil, or_false] at hmem
    rcases hmem with rfl | rfl | rfl
    · refine ⟨.inl (.inl (.inl (.inl (.inr ?_)))), fun h => absurd h hball⟩
      exact mem_contents_of_mem List.mem_cons_self
    · exact ⟨.inl (.inr (mem_contents_of_mem List.mem_cons_self)), fun h => absurd h hkit⟩
    · exact ⟨.inr (mem_contents_of_mem List.mem_cons_self), fun _ => honce⟩
  have hdisc : disc ∈ bench.parts := .inl (.inl disc_mem_workshop)
  obtain ⟨first, second, hfirst, hsecond, hiff⟩ :=
    follow_apply_iff run_bench hdisc hreplays.1
      (show (Move.doubling (.scale (.all (2 : Float)))).move.centers = false from rfl)
  exact ⟨first, second, hfirst, hsecond, hiff.mpr fun _ _ => hreplays.2⟩

/-- In each case the outcome is one disc beside its scaled copy. -/
example : ∀ path ∈ [ball, kit, lone],
    ((Session.followMoved disc path (Move.doubling (.scale (.all 2))) bench.session).1.map
      (·.parts.length)).toOption = some 2 := by decide

/-! ## Following one path after the other -/

/-- In every world that a session reaches, a part that follows a path after the path has followed
another one gets the same structure as a part that follows the path first and the other one then,
unless the path is an unlabelled union that was not made by doubling. -/
theorem follow_follow (run : Run initial log world) (part : Part Float) {path other : Part Float}
    (hpath : path ∈ world.parts) (hother : other ∈ world.parts) (hstays : ¬path.IsForgotten) :
    (Session.build (do part.follow (← path.follow other)) world.session).1.bare =
      (Session.build (do (← part.follow path).follow other) world.session).1.bare := by
  have hcomposed := run.composed initial_composed
  have hwhole : path.StaysWhole := ⟨hcomposed path hpath, hstays⟩
  show (part.follow (path.follow other world.session.next).1 _).1.bare =
    ((part.follow path world.session.next).1.follow other _).1.bare
  simp only [follow, bare_followed]
  exact replay_followed part.bare hwhole other (hcomposed other hother) _

/-- The union of two parts, beside its scaled copy. -/
def rows : Part Float :=
  (pair.applyFrom 0 (Move.doubling (.scale (.all 2))) workshop.session.next).1

def store : World := workshop.build (pair.applyFrom 0 (Move.doubling (.scale (.all 2))))

theorem run_store : Run initial [] store :=
  run_workshop.trans (.step (.build (.apply 0 _ pair_mem_workshop)) (.done _))

theorem rows_mem_store : rows ∈ store.parts := .inr (mem_contents_of_mem List.mem_cons_self)

/-- Rows that have followed rows stand twice, and so does what follows them. -/
theorem rows_followed_by_pair :
    Run initial [] store ∧ rows ∈ store.parts ∧ ¬rows.IsForgotten ∧
      (Session.build (do pair.follow (← rows.follow rows)) store.session).1.bare =
        (Session.build (do (← pair.follow rows).follow rows) store.session).1.bare := by
  have hstays : ¬rows.IsForgotten := fun h => h.2 rfl
  exact ⟨run_store, rows_mem_store, hstays,
    follow_follow run_store pair rows_mem_store rows_mem_store hstays⟩

/-- A forgotten path is put once for each of its members. -/
example :
    (Session.build (do disc.follow (← pair.follow rows)) store.session).1.parts.length = 5 ∧
      (Session.build (do (← disc.follow pair).follow rows) store.session).1.parts.length = 3 := by
  decide

end World

end SolidScript
