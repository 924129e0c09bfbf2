import SolidScript.Proofs.Motion.Composed

/-!
# Following a moved path

A part that follows a path before or after the path was moved comes out the same, unless the motion
doubles a union that was not made by doubling. The union of such a path and its copy takes in the
members of the path and forgets that they stood in one place, so that the target is put in place of
each of them (`members_replay_iff`).
-/

namespace SolidScript

open SolidScript.Part Space

variable {R : Type}

/-- Whether motions are followed through a part with this head. -/
def Head.isPath (head : Head R) : Bool := head.role == .motion || head.role == .copies

namespace Part

variable {target path inner : Part R} {outer : Kind}

theorem replay_of_not_isPath (h : ¬path.head.isPath) : target.replay path = target := by
  rw [replay_eq, replayRule]
  cases hrole : path.head.role with
  | plain => rfl
  | group => rfl
  | motion => exact absurd (by rw [Head.isPath, hrole]; rfl) h
  | copies => exact absurd (by rw [Head.isPath, hrole]; rfl) h

theorem replay_motion (h : path.head.role = .motion) :
    target.replay path = bareRule path.head (path.parts.map (replay target)) := by
  rw [replay_eq, replayRule, h]

theorem replay_copies (h : path.head.role = .copies) :
    target.replay path =
      bareRule path.head (membersOf path.head.kind (path.parts.map (replay target))) := by
  rw [replay_eq, replayRule, h]

theorem role_of_isPath (h : path.head.isPath) :
    path.head.role = .motion ∨ path.head.role = .copies := by
  rw [Head.isPath, Bool.or_eq_true, beq_iff_eq, beq_iff_eq] at h
  exact h

theorem isAbsorbedBy_replay (h : path.head.isPath) :
    (target.replay path).isAbsorbedBy outer = path.isAbsorbedBy outer := by
  rcases role_of_isPath h with hrole | hrole
  · rw [replay_motion hrole, isAbsorbedBy_bareRule]
  · rw [replay_copies hrole, isAbsorbedBy_bareRule]

theorem not_absorbed_replay (hpath : path.Composed) (hrole : path.head.role = .motion) :
    ¬(target.replay path).isAbsorbedBy .union := by
  rw [replay_motion hrole, isAbsorbedBy_bareRule]
  exact hpath.not_absorbed hrole

theorem size_lt_replay_motion (hrole : path.head.role = .motion) (hmem : inner ∈ path.parts) :
    (target.replay inner).size < (target.replay path).size := by
  rw [replay_motion hrole]
  exact size_lt_of_mem (List.mem_map_of_mem hmem)

theorem size_lt_replay_copies (hpath : path.Composed) (hrole : path.head.role = .copies)
    (hmem : inner ∈ path.parts) (hinner : inner.head.role = .motion) :
    (target.replay inner).size < (target.replay path).size := by
  obtain ⟨hkind, -⟩ := hpath.copies hrole
  rw [replay_copies hrole, hkind]
  refine size_lt_of_mem ?_
  show target.replay inner ∈ membersOf .union (path.parts.map (replay target))
  exact mem_membersOf (not_absorbed_replay (hpath.inner hmem) hinner) (List.mem_map_of_mem hmem)

theorem size_le_replay (target : Part R) (path : Part R) : path.Composed →
    target.size ≤ (target.replay path).size ∧
      (path.head.isPath → target.size < (target.replay path).size) := by
  induction path using Part.induction with
  | step path ih =>
    intro hpath
    by_cases h : path.head.isPath
    · have hlt : target.size < (target.replay path).size := by
        rcases role_of_isPath h with hrole | hrole
        · obtain ⟨-, inner, hparts⟩ := hpath.motion hrole
          have hmem : inner ∈ path.parts := hparts ▸ List.mem_cons_self
          have hle := (ih inner hmem (hpath.inner hmem)).1
          exact hle.trans_lt (size_lt_replay_motion hrole hmem)
        · obtain ⟨-, -, inner, hmem, hinner⟩ := hpath.copies hrole
          have hle := (ih inner hmem (hpath.inner hmem)).1
          exact hle.trans_lt (size_lt_replay_copies hpath hrole hmem hinner)
      exact ⟨hlt.le, fun _ => hlt⟩
    · rw [replay_of_not_isPath h]
      exact ⟨Nat.le_refl _, fun h' => absurd h' h⟩

/-! ## The members of a replayed path -/

/-- The members that take the place of those of a path when the target follows it: those of each
replay. -/
theorem members_replay_copies (hpath : path.Composed) (hrole : path.head.role = .copies)
    (habsorbed : path.isAbsorbedBy .union) :
    membersOf .union ((path.members .union).map (replay target)) =
      (target.replay path).members .union := by
  obtain ⟨hkind, hparts, -⟩ := hpath.copies hrole
  have hpathMembers : path.members .union = path.parts := by
    rw [members_of_absorbed habsorbed, membersOf_of_not_absorbed hparts]
  rw [hpathMembers, replay_copies hrole, hkind,
    members_of_absorbed (by rw [isAbsorbedBy_bareRule]; exact habsorbed)]
  exact (membersOf_membersOf _ _).symm

/-- Around members that end the path, the target stands once for each. -/
theorem membersOf_targets (paths : List (Part R)) (h : ∀ path ∈ paths, ¬path.head.isPath) :
    membersOf outer (paths.map (replay target)) =
      (List.replicate paths.length (target.members outer)).flatten := by
  induction paths with
  | nil => rfl
  | cons path rest ih =>
    obtain ⟨hpath, hrest⟩ := List.forall_mem_cons.mp h
    rw [List.map_cons, membersOf, replay_of_not_isPath hpath, ih hrest]
    rfl

/-- A member that goes on with the path makes the replay larger than any member of the target. -/
theorem not_isPath_of_members_eq {paths : List (Part R)}
    (hpaths : ∀ path ∈ paths, path.Composed ∧ ¬path.isAbsorbedBy outer)
    (h : membersOf outer (paths.map (replay target)) = target.members outer) :
    ∀ path ∈ paths, ¬path.head.isPath := by
  intro path hmem hpath
  obtain ⟨hcomposed, hstays⟩ := hpaths path hmem
  have hreplay : target.replay path ∈ membersOf outer (paths.map (replay target)) := by
    refine mem_membersOf ?_ (List.mem_map_of_mem hmem)
    rw [isAbsorbedBy_replay hpath]
    exact hstays
  -- The replay would stand within the target, but it is larger than the target.
  rw [h] at hreplay
  have hle := (within_of_mem_members outer target _ hreplay).size_le
  have hlt := (size_le_replay target path hcomposed).2 hpath
  omega

theorem flatten_replicate_eq_iff {α : Type} (n : Nat) (xs : List α) :
    (List.replicate n xs).flatten = xs ↔ n = 1 ∨ xs = [] := by
  constructor
  · intro h
    have hlength := congrArg List.length h
    rw [List.length_flatten, List.map_replicate, List.sum_replicate_nat] at hlength
    rcases Nat.eq_zero_or_pos xs.length with hzero | hpos
    · exact .inr (List.length_eq_zero_iff.mp hzero)
    · exact .inl (Nat.eq_of_mul_eq_mul_right hpos (hlength.trans (Nat.one_mul _).symm))
  · rintro (rfl | rfl)
    · exact List.append_nil xs
    · exact List.flatten_replicate_nil

/-- A union that a doubling motion takes in, and that was not made by doubling itself. -/
def IsForgotten (path : Part R) : Prop := path.isAbsorbedBy .union ∧ path.head.role ≠ .copies

theorem not_forgotten_of_isPath (hpath : path.Composed) (h : path.head.isPath) :
    ¬path.IsForgotten := by
  rintro ⟨habsorbed, hrole⟩
  rcases role_of_isPath h with hmotion | hcopies
  · exact hpath.not_absorbed hmotion habsorbed
  · exact hrole hcopies

/-- The members of a path end it, and there is one of them unless the target has no members. -/
def EndsOnce (target path : Part R) : Prop :=
  (∀ inner ∈ path.members .union, ¬inner.head.isPath) ∧
    ((path.members .union).length = 1 ∨ target.members .union = [])

/-- The target replayed around the members of a path has the members of the target replayed around
the path, unless the path is forgotten and does not end once. -/
theorem members_replay_iff (target : Part R) (hpath : path.Composed) :
    membersOf .union ((path.members .union).map (replay target)) =
        (target.replay path).members .union ↔
      path.IsForgotten → target.EndsOnce path := by
  by_cases habsorbed : path.isAbsorbedBy .union
  · by_cases hrole : path.head.role = .copies
    · refine iff_of_true (members_replay_copies hpath hrole habsorbed) fun hforgotten => ?_
      exact absurd hrole hforgotten.2
    · have hends : ¬path.head.isPath := fun h =>
        not_forgotten_of_isPath hpath h ⟨habsorbed, hrole⟩
      rw [replay_of_not_isPath hends]
      constructor
      · intro heq _
        have hmembers : ∀ inner ∈ path.members .union,
            inner.Composed ∧ ¬inner.isAbsorbedBy .union := fun inner hmem =>
          ⟨hpath.within (within_of_mem_members .union path inner hmem),
            not_absorbed_of_mem_members hmem⟩
        have hnot := not_isPath_of_members_eq hmembers heq
        rw [membersOf_targets _ hnot] at heq
        exact ⟨hnot, (flatten_replicate_eq_iff _ _).mp heq⟩
      · intro h
        obtain ⟨hnot, hone⟩ := h ⟨habsorbed, hrole⟩
        rw [membersOf_targets _ hnot]
        exact (flatten_replicate_eq_iff _ _).mpr hone
  · rw [members_of_not_absorbed habsorbed, List.map_singleton, membersOf_singleton]
    exact iff_of_true rfl fun hforgotten => absurd hforgotten.1 habsorbed

theorem endsOnce_bare (target path : Part R) :
    target.bare.EndsOnce path ↔ target.EndsOnce path := by
  unfold EndsOnce
  rw [← bare_members, List.map_eq_nil_iff]

theorem bareRule_inj {head : Head R} {parts parts' : List (Part R)} :
    bareRule head parts = bareRule head parts' ↔ parts = parts' := by
  simp [bareRule]

/-! ## Moving before and after -/

def copiesHead : Head R := Head.ofKind .union [] ∅ .copies

section Copies

variable {part copy : Part R} (hcopy : copy.Composed) (hrole : copy.head.role = .motion)

include hcopy hrole

theorem membersOf_copies : membersOf .union [part, copy] = part.members .union ++ [copy] := by
  rw [membersOf, membersOf_singleton, members_of_not_absorbed (hcopy.not_absorbed hrole)]

theorem bare_copies (next : Nat) :
    (Build.copies part copy next).1.bare =
      bareRule copiesHead (part.bare.members .union ++ [copy.bare]) := by
  show (Part.mk next copiesHead (membersOf .union [part, copy])).bare = _
  rw [bare_mk, membersOf_copies hcopy hrole, List.map_append, bare_members]
  rfl

theorem replay_copiesOf (target : Part R) (next : Nat) :
    target.replay (Build.copies part copy next).1 =
      bareRule copiesHead
        (membersOf .union ((part.members .union).map (replay target)) ++ [target.replay copy]) := by
  show target.replay (Part.mk next copiesHead (membersOf .union [part, copy])) = _
  rw [replay_copies rfl, membersOf_copies hcopy hrole]
  show bareRule copiesHead (membersOf .union ((part.members .union ++ [copy]).map _)) = _
  rw [List.map_append, membersOf_append, List.map_singleton, membersOf_singleton,
    members_of_not_absorbed (not_absorbed_replay hcopy hrole)]

end Copies

theorem stacks_replay (target : Part R) : Stacks fun a b => target.replay a = b.bare := by
  intro a b h serial serial' head hrole _
  rw [replay_motion hrole, bare_mk]
  exact congrArg (fun part => bareRule head [part]) h

variable [Zero R] [Neg R] [BEq R]

/-- Following a path that was moved gives what moving gives after the path was followed, unless the
motion doubles a forgotten path that does not end once. -/
theorem bare_follow_applyFrom {target other : Part R} (htarget : target.Composed)
    (hother : other.Composed) (centroid : Vec3 R) (motion : Motion R) {first third : Nat}
    (second fourth : Nat) (hserial : other.serial < first)
    (hserial' : (target.follow other third).1.serial < fourth) :
    (target.follow (other.applyFrom centroid motion first).1 second).1.bare =
        ((target.follow other third).1.applyFrom centroid motion fourth).1.bare ↔
      (motion.doubles → ¬motion.move.isIdle centroid → other.IsForgotten →
        target.EndsOnce other) := by
  have hfollowed : target.bare.replay other = (target.follow other third).1.bare :=
    (bare_followed target other third).symm
  have hmoved := moveFrom_rel (stacks_replay target.bare) hfollowed centroid motion.move
    first fourth
  rw [follow, bare_followed]
  by_cases h : motion.doubles ∧ ¬motion.move.isIdle centroid
  · obtain ⟨hdoubles, hmoves⟩ := h
    have hcopy := Build.yields_moveFrom hother centroid motion.move first
    have hrole := (other.isMotionFrom_moveFrom hmoves first).1
    have hreplayed : (target.follow other third).1.Composed :=
      (Build.yields_followed htarget other hother third).1
    have hcopy' := Build.yields_moveFrom hreplayed centroid motion.move fourth
    have hrole' := ((target.follow other third).1.isMotionFrom_moveFrom hmoves fourth).1
    -- Both sides are a union with one moved copy at its end, and the copies are the same.
    rw [applyFrom_doubling hserial hdoubles hmoves, applyFrom_doubling hserial' hdoubles hmoves,
      replay_copiesOf hcopy hrole, bare_copies hcopy' hrole', hmoved, ← hfollowed, bareRule_inj,
      List.append_left_inj, members_replay_iff target.bare hother, endsOnce_bare]
    exact ⟨fun h _ _ => h, fun h => h hdoubles hmoves⟩
  · have hsingle : motion.doubles → motion.move.isIdle centroid := fun hdoubles =>
      Classical.not_not.mp fun hmoves => h ⟨hdoubles, hmoves⟩
    rw [applyFrom_single _ hsingle, applyFrom_single _ hsingle]
    exact iff_of_true hmoved fun hdoubles hmoves => absurd ⟨hdoubles, hmoves⟩ h

end Part

end SolidScript
