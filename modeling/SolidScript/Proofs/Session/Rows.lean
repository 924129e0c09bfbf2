import SolidScript.Proofs.Session.Replay

/-!
# Rows of copies

A part that is doubled by a motion makes a row, and the row can be doubled by the same motion again.
A row is taken in as a whole by the union that doubles it, and the copy of it that was moved is not.
So each doubling adds one copy at the end: a row holds the members of the first part and then the
moved copies of all rows before it (`World.parts_of_row`). An idle motion leaves the part as it is.
-/

namespace SolidScript

open SolidScript.Part Space

namespace Part

variable {R : Type} [Zero R] [Neg R] [BEq R]

/-- A part doubled by a move a number of times. -/
def row (part : Part R) (move : Move R) : Nat → Build (Part R)
  | 0 => pure part
  | n + 1 => do (← part.row move n).applyFrom 0 move.doubling

def copyOfRow (part : Part R) (move : Move R) (next n : Nat) : Part R :=
  ((part.row move n next).1.moveFrom 0 move (part.row move n next).2).1

/-- What a move makes of a part does not depend on the serial numbers it is given. -/
theorem bare_moveFrom (part : Part R) (centroid : Vec3 R) (move : Move R) (next next' : Nat) :
    (part.moveFrom centroid move next).1.bare = (part.moveFrom centroid move next').1.bare := by
  have hstacks : Stacks fun a b : Part R => a.bare = b.bare := by
    intro a b h serial serial' head _ _
    rw [bare_mk, bare_mk, List.map_singleton, List.map_singleton, h]
  exact moveFrom_rel hstacks rfl centroid move next next'

theorem row_of_isIdle (part : Part R) {move : Move R} (h : move.isIdle 0) (n next : Nat) :
    part.row move n next = (part, next) := by
  induction n with
  | zero => rfl
  | succ n ih =>
    rw [row, Build.run_bind, ih, applyFrom_single part (fun _ => h)]
    exact part.moveFrom_of_isIdle h next

theorem composed_row {part : Part R} (hpart : part.Composed) (move : Move R) (n next : Nat) :
    (part.row move n next).1.Composed := by
  induction n with
  | zero => exact hpart
  | succ n ih => exact Build.yields_applyFrom ih 0 move.doubling _

section Moves

variable {part : Part R} {move : Move R} {next : Nat} (hserial : part.serial < next)
  (hmoves : ¬move.isIdle 0)

include hserial hmoves

theorem serial_row_lt (n : Nat) :
    (part.row move n next).1.serial < (part.row move n next).2 := by
  induction n with
  | zero => exact hserial
  | succ n ih =>
    rw [row, Build.run_bind, applyFrom_doubling ih rfl hmoves]
    exact Nat.lt_succ_self _

/-- Each row is the union of the row before and its copy. -/
theorem row_succ (n : Nat) :
    ∃ free, part.row move (n + 1) next =
      Build.copies (part.row move n next).1 (part.copyOfRow move next n) free := by
  rw [row, Build.run_bind]
  exact ⟨_, applyFrom_doubling (serial_row_lt hserial hmoves n) rfl hmoves⟩

theorem head_row_succ (n : Nat) : (part.row move (n + 1) next).1.head = copiesHead := by
  obtain ⟨free, hrow⟩ := row_succ hserial hmoves n
  rw [hrow]
  rfl

variable (hpart : part.Composed)

include hpart

theorem parts_row_succ (n : Nat) :
    (part.row move (n + 1) next).1.parts =
      (part.row move n next).1.members .union ++ [part.copyOfRow move next n] := by
  have hcopy : (part.copyOfRow move next n).Composed :=
    Build.yields_moveFrom (composed_row hpart move n next) 0 move _
  have hrole : (part.copyOfRow move next n).head.role = .motion :=
    (isMotionFrom_moveFrom _ hmoves _).1
  obtain ⟨free, hrow⟩ := row_succ hserial hmoves n
  rw [hrow, ← membersOf_copies hcopy hrole]
  rfl

theorem members_row (n : Nat) :
    (part.row move n next).1.members .union =
      part.members .union ++ (List.range n).map (part.copyOfRow move next) := by
  induction n with
  | zero => exact (List.append_nil _).symm
  | succ n ih =>
    obtain ⟨free, hrow⟩ := row_succ hserial hmoves n
    have habsorbed : (part.row move (n + 1) next).1.isAbsorbedBy .union := by
      rw [isAbsorbedBy, head_row_succ hserial hmoves]
      rfl
    have hagain : membersOf .union (part.row move (n + 1) next).1.parts =
        (part.row move (n + 1) next).1.parts := by
      rw [hrow]
      exact membersOf_membersOf .union _
    rw [members_of_absorbed habsorbed, hagain, parts_row_succ hserial hmoves hpart, ih,
      List.range_succ, List.map_append, List.append_assoc]
    rfl

/-- A row holds the members of the first part and then the copies of all rows before it. -/
theorem parts_row (n : Nat) :
    (part.row move (n + 1) next).1.parts =
      part.members .union ++ (List.range (n + 1)).map (part.copyOfRow move next) := by
  rw [parts_row_succ hserial hmoves hpart, members_row hserial hmoves hpart, List.range_succ,
    List.map_append, List.append_assoc]
  rfl

end Moves

end Part

namespace Session

/-- A part doubled by a motion a number of times, as long as this does not fail. -/
def row (part : Part Float) (motion : Motion Float) : Nat → Query (Except Fault (Part Float))
  | 0 => return .ok part
  | n + 1 => do
    match ← row part motion n with
    | .error fault => return .error fault
    | .ok last => apply last motion

theorem row_of_not_centers {move : Move Float} (h : move.centers = false) (part : Part Float)
    (n : Nat) (session : Session) :
    row part move.doubling n session =
      (.ok (part.row move n session.next).1,
        { session with next := (part.row move n session.next).2 }) := by
  induction n with
  | zero => rfl
  | succ n ih =>
    have hcenters : move.doubling.move.centers = false := h
    simp only [row, bind, StateT.bind, ih, apply_of_not_centers hcenters]
    rfl

end Session

namespace World

variable {world : World} {log : Log}

/-- In every world that a session reaches, a part can be doubled again and again by a motion that
asks for no centroid. If the motion moves, the outcome is a union of the members of the part and,
behind them, the moved copies of all rows before: each has the structure that the row gets when it
is moved alone, at whatever time. If the motion is idle, the outcome is the very same part. -/
theorem parts_of_row (run : Run initial log world) {part : Part Float}
    (hpart : part ∈ world.parts) {move : Move Float} (hcenters : move.centers = false) :
    (¬move.isIdle 0 → ∀ n, ∃ row copies,
      (Session.row part move.doubling (n + 1) world.session).1 = .ok row ∧
        row.head = copiesHead ∧ row.parts = part.members .union ++ copies ∧
        List.Forall₂ (fun k copy => ∃ earlier,
            (Session.row part move.doubling k world.session).1 = .ok earlier ∧
              ∀ later, ∃ moved, (Session.apply earlier move.alone later).1 = .ok moved ∧
                moved.bare = copy.bare)
          (List.range (n + 1)) copies) ∧
      (move.isIdle 0 → ∀ n,
        Session.row part move.doubling n world.session = (.ok part, world.session)) := by
  simp only [Session.row_of_not_centers hcenters]
  refine ⟨fun hmoves n => ?_, fun hidle n => ?_⟩
  · obtain ⟨-, hsound, -⟩ := run.kept initial_isFresh.sound
    have hserial := hsound.heap.below part hpart
    have hcomposed := run.composed initial_composed part hpart
    refine ⟨_, _, rfl, head_row_succ hserial hmoves n, parts_row hserial hmoves hcomposed n, ?_⟩
    rw [List.forall₂_map_right_iff, List.forall₂_same]
    refine fun k _ => ⟨_, rfl, fun later => ?_⟩
    have halone : move.alone.move.centers = false := hcenters
    rw [Session.apply_of_not_centers halone]
    refine ⟨_, rfl, ?_⟩
    rw [applyFrom_single _ fun h => absurd h Bool.false_ne_true]
    exact bare_moveFrom _ 0 move _ _
  · rw [row_of_isIdle part hidle]

/-! ## Rows of a pair -/

/-- The reflection across a plane that does not go through the origin. -/
def beside : Move Float := .mirrorX 2

/-- A pair is reflected twice, and the second time its first copy as well. A shift by nothing leaves
it alone. -/
theorem parts_of_row_pair :
    (∃ row copies,
      (Session.row pair beside.doubling 2 workshop.session).1 = .ok row ∧
        row.parts = [block, ball] ++ copies ∧ copies.length = 2) ∧
      (Session.row pair (Move.shiftBy 0).doubling 2 workshop.session).1 = .ok pair := by
  have hmoves : ¬beside.isIdle 0 := Bool.false_ne_true
  have hidle : (Move.shiftBy (0 : Vec3 Float)).isIdle 0 := by decide +kernel
  have hcenters : beside.centers = false := rfl
  have hcenters' : (Move.shiftBy (0 : Vec3 Float)).centers = false := rfl
  obtain ⟨hrows, -⟩ := parts_of_row run_workshop pair_mem_workshop hcenters
  obtain ⟨-, hstays⟩ := parts_of_row run_workshop pair_mem_workshop hcenters'
  obtain ⟨row, copies, hrow, -, hparts, hcopies⟩ := hrows hmoves 1
  refine ⟨⟨row, copies, hrow, hparts, hcopies.length_eq.symm⟩, ?_⟩
  rw [hstays hidle 2]

end World

end SolidScript
