import SolidScript.Proofs.Script.Cells
import SolidScript.Proofs.Session.World

/-!
# Answers do not depend on what is kept

The answers of a session are full expansions, whatever was asked before and by which writer.
`World.Sound` is the invariant of a world: its parts form a heap, and what is kept for them is
right. Every step keeps it and adds to what is kept (`Step.kept`), and so does every run.
-/

namespace SolidScript

open SolidScript.Part

namespace World

variable {world next final : World} {log : Log}

/-- The parts form a heap, texts are kept for parts with all parts entered for them, and digests
are digests of texts. -/
structure Sound (world : World) : Prop where
  heap : IsHeap world.parts world.session.next
  texts : HoldsTexts world.parts world.session.texts
  identity : world.session.identities.Holds world.parts fun part =>
    part.script.map Digest.ofText
  identities : world.session.identities.Among world.parts

structure Keeps (later earlier : World) : Prop where
  texts : later.session.texts.Keeps earlier.session.texts
  identities : later.session.identities.Keeps earlier.session.identities

def StartsEmpty (later earlier : World) : Prop :=
  ∀ part ∈ later.parts, part ∉ earlier.parts →
    later.session.texts.get? part = none ∧ later.session.identities.get? part = none

/-- What a step leaves behind. -/
structure Kept (earlier later : World) : Prop where
  sound : later.Sound
  keeps : later.Keeps earlier
  empty : later.StartsEmpty earlier

theorem Keeps.refl (world : World) : world.Keeps world := ⟨.refl _, .refl _⟩

theorem Keeps.trans {first second third : World} (h : second.Keeps first)
    (h' : third.Keeps second) : third.Keeps first :=
  ⟨h.texts.trans h'.texts, h.identities.trans h'.identities⟩

theorem StartsEmpty.of_subset {later earlier : World} (h : later.parts ⊆ earlier.parts) :
    later.StartsEmpty earlier := fun _ hpart hnew => absurd (h hpart) hnew

theorem IsFresh.sound (h : world.IsFresh) : world.Sound where
  heap := h.heap
  texts := by
    rw [h.texts]
    exact .empty _
  identity := by
    rw [h.identities]
    exact .empty _ _
  identities := by
    rw [h.identities]
    exact .empty _

/-! ## Building -/

/-- Parts that are built have no answers yet, and the others keep theirs. -/
theorem Sound.grow (h : world.Sound) {built : Part Float}
    (growth : Growth world.parts world.session.next [built] next.session.next)
    (hparts : next.parts = world.parts ∪ contents [built])
    (htexts : next.session.texts = world.session.texts)
    (hidentities : next.session.identities = world.session.identities) : world.Kept next where
  sound := {
    heap := by
      rw [hparts]
      exact growth.heap
    texts := by
      rw [hparts, htexts]
      exact h.texts.grow h.heap growth
    identity := by
      rw [hparts, hidentities]
      exact h.identity.grow h.identities h.heap growth
    identities := by
      rw [hparts, hidentities]
      exact h.identities.mono Set.subset_union_left }
  keeps := by
    constructor
    · rw [htexts]
      exact .refl _
    · rw [hidentities]
      exact .refl _
  empty part hpart hnew := by
    rw [hparts] at hpart
    rw [htexts, hidentities]
    have hlate : world.session.next ≤ part.serial :=
      (growth.old_or_new hpart).resolve_left hnew
    exact ⟨h.texts.among.get?_new h.heap hlate, h.identities.get?_new h.heap hlate⟩

theorem Sound.build (h : world.Sound) {construction : Build (Part Float)}
    (builder : Builder world.parts construction) : world.Kept (world.build construction) :=
  h.grow (builder.adds world.parts _ Set.Subset.rfl h.heap) rfl rfl rfl

/-- A motion that was refused built nothing and touched no answer; otherwise a part was built. Of
what is kept only the extents may have changed, as if they were asked for. -/
theorem apply_eq (world : World) (part : Part Float) (motion : Motion Float) :
    ∃ extents, (extents = world.session.extents ∨
        extents = (Session.extent part world.session).2.extents) ∧
      (world.apply part motion = { world with session := { world.session with extents } } ∨
        ∃ centroid, world.apply part motion =
          { world with session := { world.session with extents } }.build
            (part.applyFrom centroid motion)) := by
  unfold apply
  cases hcenters : motion.move.centers with
  | false =>
    rw [Session.apply_of_not_centers hcenters]
    exact ⟨world.session.extents, .inl rfl, .inr ⟨0, rfl⟩⟩
  | true =>
    -- Only a motion to the center asks for the extent, which can be a fault.
    rw [Session.apply_of_centers hcenters]
    refine ⟨(Session.extent part world.session).2.extents, .inr rfl, ?_⟩
    unfold Session.extent
    obtain ⟨result, extents⟩ := world.session.extents.value extentRule (.ok .unknown) part
    cases result with
    | error fault => exact .inl rfl
    | ok extent => exact .inr ⟨extent.centroid, rfl⟩

theorem Sound.withExtents (h : world.Sound) (extents : Memo (Except Fault (Extent Float))) :
    Sound { world with session := { world.session with extents } } :=
  ⟨h.heap, h.texts, h.identity, h.identities⟩

theorem Sound.apply (h : world.Sound) {part : Part Float} (hpart : part ∈ world.parts)
    (motion : Motion Float) : world.Kept (world.apply part motion) := by
  obtain ⟨extents, -, hrefused | ⟨centroid, hmoved⟩⟩ := world.apply_eq part motion
  · rw [hrefused]
    exact ⟨h.withExtents extents, ⟨.refl _, .refl _⟩, .of_subset Set.Subset.rfl⟩
  · rw [hmoved]
    have kept := (h.withExtents extents).build (.apply centroid motion hpart)
    exact ⟨kept.sound, ⟨kept.keeps.texts, kept.keeps.identities⟩, kept.empty⟩

/-! ## Asking -/

def withTexts (world : World) (texts : Memo ScriptResult) : World :=
  { world with session := { world.session with texts } }

theorem Sound.visited (h : world.Sound) {visited : List (Part Float)} {before after : Writer}
    (hbefore : before.texts = world.session.texts)
    (hvisited : Writer.Visited world.parts visited before after) :
    world.Kept (world.withTexts after.texts) where
  sound := ⟨h.heap, hvisited.holds, h.identity, h.identities⟩
  keeps := ⟨hbefore ▸ hvisited.keeps, .refl _⟩
  empty := .of_subset Set.Subset.rfl

theorem Sound.script (h : world.Sound) {part : Part Float} (hpart : part ∈ world.parts) :
    (world.query (Session.script part)).1 = part.script ∧
      world.Kept (world.query (Session.script part)).2 := by
  obtain ⟨hresult, hvisited⟩ :=
    Writer.writes h.heap part hpart (Writer.on world.session.texts) h.texts
  exact ⟨hresult, h.visited rfl hvisited⟩

theorem Sound.serialize (h : world.Sound) (index : Nat) {part : Part Float}
    (hpart : part ∈ world.parts) :
    (world.serialize index part).1 = part.script ∧
      world.Kept (world.serialize index part).2 := by
  obtain ⟨hresult, hvisited⟩ := Writer.writes h.heap part hpart (world.writer index) h.texts
  have kept := h.visited rfl hvisited
  refine ⟨hresult, ?_, ?_, .of_subset Set.Subset.rfl⟩
  · exact ⟨kept.sound.heap, kept.sound.texts, kept.sound.identity, kept.sound.identities⟩
  · exact ⟨kept.keeps.texts, kept.keeps.identities⟩

theorem query_render (world : World) (settings : Settings) (part : Part Float) :
    world.query (Session.render settings part) =
      ((world.query (Session.script part)).1.map settings.around,
        (world.query (Session.script part)).2) := rfl

def withIdentity (world : World) (part : Part Float) (result : ScriptResult) : World :=
  { world with
    session := { world.session with identities := world.session.identities.fill part result } }

theorem query_identity (world : World) (part : Part Float) :
    world.query (Session.identity part) =
      match world.session.identities.get? part with
      | some result => (result, world)
      | none =>
        let result := (world.query (Session.script part)).1.map Digest.ofText
        (result, (world.query (Session.script part)).2.withIdentity part result) := by
  unfold query Session.identity
  simp only [bind, StateT.bind, get, getThe, MonadStateOf.get, StateT.get, pure]
  cases world.session.identities.get? part <;> rfl

theorem Sound.withIdentity (h : world.Sound) {part : Part Float} (hpart : part ∈ world.parts) :
    world.Kept (world.withIdentity part (part.script.map Digest.ofText)) where
  sound := ⟨h.heap, h.texts, h.identity.fill h.heap.apart hpart, h.identities.fill hpart _⟩
  keeps := ⟨.refl _, Memo.keeps_fill _ _ _⟩
  empty := .of_subset Set.Subset.rfl

theorem Sound.askIdentity (h : world.Sound) {part : Part Float} (hpart : part ∈ world.parts) :
    (world.query (Session.identity part)).1 = part.script.map Digest.ofText ∧
      world.Kept (world.query (Session.identity part)).2 := by
  rw [query_identity]
  cases hget : world.session.identities.get? part with
  | some result => exact ⟨h.identity part hpart result hget, h, .refl world, .of_subset subset_rfl⟩
  | none =>
    obtain ⟨hresult, kept⟩ := h.script hpart
    rw [hresult]
    have kept' : World.Kept _ _ := kept.sound.withIdentity hpart
    exact ⟨rfl, kept'.sound, kept.keeps.trans kept'.keeps, .of_subset subset_rfl⟩

theorem Sound.ask (h : world.Sound) {question : Question} (hpart : question.part ∈ world.parts) :
    (world.ask question).1 = question.expansion ∧ world.Kept (world.ask question).2 := by
  cases question with
  | script part => exact h.script hpart
  | identity part => exact h.askIdentity hpart
  | serialize index part => exact h.serialize index hpart
  | render settings part =>
    change part ∈ world.parts at hpart
    obtain ⟨hresult, kept⟩ := h.script hpart
    refine ⟨?_, kept⟩
    show (world.query (Session.render settings part)).1 = settings.render part
    rw [query_render, hresult]
    rfl

/-! ## Runs -/

/-- Every step answers with full expansions and keeps what is kept. -/
theorem Step.kept (h : world.Sound) (step : Step world log next) :
    (∀ entry ∈ log, entry.2 = entry.1.expansion) ∧ world.Kept next := by
  cases step with
  | build builder => exact ⟨List.forall_mem_nil _, h.build builder⟩
  | apply motion hpart => exact ⟨List.forall_mem_nil _, h.apply hpart motion⟩
  | ask hpart =>
    obtain ⟨hanswer, kept⟩ := h.ask hpart
    refine ⟨fun entry hmem => ?_, kept⟩
    rw [List.mem_singleton.mp hmem]
    exact hanswer

/-- So does every run. -/
theorem Run.kept (h : world.Sound) (run : Run world log final) :
    (∀ entry ∈ log, entry.2 = entry.1.expansion) ∧ final.Sound ∧ final.Keeps world := by
  induction run with
  | done world => exact ⟨List.forall_mem_nil _, h, .refl world⟩
  | step hstep _ ih =>
    obtain ⟨hfirst, kept⟩ := hstep.kept h
    obtain ⟨hrest, hsound, hkeeps⟩ := ih kept.sound
    refine ⟨fun entry hmem => ?_, hsound, kept.keeps.trans hkeeps⟩
    rcases List.mem_append.mp hmem with hmem | hmem
    · exact hfirst entry hmem
    · exact hrest entry hmem

/-- What is kept for the parts of a world is their text and their digest, and all parts right below
a part with a text have texts. -/
structure Coherent (world : World) : Prop where
  text : ∀ part ∈ world.parts, ∀ result,
    world.session.texts.get? part = some result → result = part.script
  identity : ∀ part ∈ world.parts, ∀ result,
    world.session.identities.get? part = some result → result = part.script.map Digest.ofText
  below : ∀ part ∈ world.parts, ∀ text, world.session.texts.get? part = some (.ok text) →
    ∀ inner ∈ part.parts, ∃ text, world.session.texts.get? inner = some (.ok text)

theorem Sound.coherent (h : world.Sound) : world.Coherent where
  text := h.texts.value
  identity := h.identity
  below _ hpart _ hget _ hinner := h.texts.below h.heap hpart hinner hget

/-- On any heap of which nothing is kept yet, a run of any builders and questions answers with full
expansions. At its end what is kept is right, no later step changes it, and nothing is kept for
parts that are built next. -/
theorem Run.answers {start : World} (hfresh : start.IsFresh) (run : Run start log final) :
    (∀ entry ∈ log, entry.2 = entry.1.expansion) ∧ final.Coherent ∧
      (∀ later log', Run final log' later → later.Keeps final) ∧
      (∀ next log', Step final log' next → next.StartsEmpty final) := by
  obtain ⟨hanswers, hsound, -⟩ := run.kept hfresh.sound
  refine ⟨hanswers, hsound.coherent, fun later log' run' => ?_, fun next log' step => ?_⟩
  · exact (run'.kept hsound).2.2
  · exact (step.kept hsound).2.empty

def initial : World := ⟨Session.initial, fun _ => ⟨0, 0⟩, ∅⟩

theorem initial_isFresh : initial.IsFresh := ⟨⟨.empty 0, rfl, rfl⟩, rfl⟩

def pearl : Part Float := ⟨0, .ofKind .sphere [] ∅ .plain, []⟩

/-- A part that cannot be written. -/
def chipped : Part Float := ⟨1, .ofKind .cube [.ident "1"] ∅ .plain, []⟩

def clasp : Part Float := ⟨2, .ofKind .difference [] ∅ .plain, [pearl, pearl]⟩

def necklace : Part Float := ⟨3, .ofKind .difference [] ∅ .plain, [clasp, chipped, pearl]⟩

def beads : World :=
  (initial.build (Build.plain .sphere [] [] ∅)).build (Build.plain .cube [] [.ident "1"] ∅)

/-- A world where a part stands in two others, and beside the part that cannot be written. -/
def strung : World :=
  (beads.build (Build.plain .difference [pearl, pearl] [] ∅)).build
    (Build.plain .difference [clasp, chipped, pearl] [] ∅)

theorem pearl_mem_beads : pearl ∈ beads.parts :=
  .inl (.inr (mem_contents_of_mem List.mem_cons_self))

theorem clasp_mem_strung : clasp ∈ strung.parts :=
  .inl (.inr (mem_contents_of_mem List.mem_cons_self))

theorem necklace_mem_strung : necklace ∈ strung.parts :=
  .inr (mem_contents_of_mem List.mem_cons_self)

theorem run_strung : Run initial [] strung := by
  refine .step (.build (.plain .sphere _ _ (List.forall_mem_nil _)))
    (.step (.build (.plain .cube _ _ (List.forall_mem_nil _)))
      (.step (.build (.plain .difference _ _ ?_))
        (.step (.build (.plain .difference _ _ ?_)) (.done strung))))
  · exact List.forall_mem_cons.mpr
      ⟨pearl_mem_beads, List.forall_mem_singleton.mpr pearl_mem_beads⟩
  · have hclasp := mem_contents_of_mem (List.mem_cons_self (a := clasp) (l := []))
    have hchipped := mem_contents_of_mem (List.mem_cons_self (a := chipped) (l := []))
    exact List.forall_mem_cons.mpr ⟨.inr hclasp, List.forall_mem_cons.mpr
      ⟨.inl (.inr hchipped), List.forall_mem_singleton.mpr (.inl pearl_mem_beads)⟩⟩

/-- A part that was written below one part is given again below another, and a fault midway through
the parts of a part is given again from memory. -/
theorem Run.answers_necklace :
    ∃ final, Run initial
      [(.script clasp, .ok "difference()\x7bsphere();sphere();\x7d"),
        (.serialize 0 necklace, .error (.notAnIdentifier "1")),
        (.identity pearl, .ok (Digest.ofText "sphere();")),
        (.serialize 1 necklace, .error (.notAnIdentifier "1"))] final ∧ final.Coherent := by
  have hpearl : pearl ∈ strung.parts := .inl (.inl pearl_mem_beads)
  have hasked : Run strung [(.script clasp, _), (.serialize 0 necklace, _), (.identity pearl, _),
      (.serialize 1 necklace, _)] _ :=
    .ask clasp_mem_strung (.ask necklace_mem_strung (.ask hpearl
      (.ask necklace_mem_strung (.done _))))
  have run := run_strung.trans hasked
  obtain ⟨hanswers, hcoherent, -⟩ := Run.answers initial_isFresh run
  simp only [List.nil_append, List.forall_mem_cons] at hanswers
  obtain ⟨hclasp, hnecklace, hdigest, hagain, -⟩ := hanswers
  rw [List.nil_append, hclasp, hnecklace, hdigest, hagain] at run
  exact ⟨_, run, hcoherent⟩

end World

end SolidScript
