import SolidScript.Motion.Apply
import SolidScript.Proofs.Group.Members

/-!
# The constructions of the library

`Builder` lists the ways in which a part is built from given parts. Primitives, wrappers and
differences are plain parts. Every builder only adds to the heap of the given parts
(`Builder.adds`): what a part contributes to a group stands within it, and motions, doubled
motions and replayed motions are built one part after another.
-/

namespace SolidScript

open SolidScript.Part Space

variable {R : Type}

namespace Part

theorem followed_eq (target path : Part R) :
    followed target path =
      match path.head.role with
      | .motion => followedAll target path.parts >>= path.withParts
      | .copies => followedAll target path.parts >>= fun parts =>
          path.withParts (membersOf path.head.kind parts)
      | .plain | .group => pure target := by
  cases path
  unfold followed
  rfl

end Part

namespace Build

abbrev single (part : Part R) : List (Part R) := [part]

variable {given : Set (Part R)}

theorem mem_union_single {part : Part R} : part ∈ given ∪ {other | other ∈ single part} :=
  .inr List.mem_cons_self

theorem adds_ofKind (kind : Kind) {parts : List (Part R)} (args : List (Value R))
    (named : Named (Value R)) (role : Role) (h : ∀ part ∈ parts, part ∈ given) :
    Adds given single (ofKind kind parts args named role) :=
  Adds.part _ fun part hpart => ⟨part, h part hpart, .self⟩

/-- A group is built over what its parts contribute. -/
theorem adds_part_membersOf (head : Head R) {parts : List (Part R)} (outer : Kind)
    (h : ∀ part ∈ parts, part ∈ given) :
    Adds given single (part head (membersOf outer parts)) := by
  refine Adds.part _ fun part hpart => ?_
  obtain ⟨source, hsource, hw⟩ := within_of_mem_membersOf hpart
  exact ⟨source, h source hsource, hw⟩

theorem adds_groupAs (role : Role) (kind : Kind) {parts : List (Part R)}
    (h : ∀ part ∈ parts, part ∈ given) : Adds given single (groupAs role kind parts) :=
  adds_part_membersOf _ kind h

/-! ## Motions -/

section Motions

variable {part : Part R} (hpart : part ∈ given)

include hpart

theorem adds_moved (kind : Kind) (args : List (Value R)) (named : Named (Value R)) :
    Adds given single (part.moved kind args named) :=
  adds_ofKind kind args named .motion fun _ hmem => List.mem_singleton.mp hmem ▸ hpart

theorem adds_unmoved : Adds given single (pure part) :=
  Adds.pure fun _ hmem => List.mem_singleton.mp hmem ▸ hpart

variable [Zero R] [BEq R]

theorem adds_shiftBy (v : Vec3 R) : Adds given single (part.shiftBy v) := by
  unfold shiftBy
  split
  · exact adds_unmoved hpart
  · exact adds_moved hpart _ _ _

variable [Neg R]

theorem adds_aboutPivot (kind : Kind) (v pivot : Vec3 R) :
    Adds given single (part.aboutPivot kind v pivot) := by
  unfold aboutPivot
  refine (adds_shiftBy hpart (-pivot)).bind fun shifted => ?_
  refine (adds_moved mem_union_single kind _ _).bind fun placed => ?_
  exact adds_shiftBy mem_union_single pivot

theorem adds_moveFrom (centroid : Vec3 R) (move : Move R) :
    Adds given single (part.moveFrom centroid move) := by
  cases move with
  | shift x y z => exact adds_shiftBy hpart _
  | turn angles pivot =>
    show Adds given single (part.turnAbout angles pivot)
    unfold turnAbout
    split
    · exact adds_unmoved hpart
    · exact adds_aboutPivot hpart _ _ _
  | scale factors => exact adds_moved hpart _ _ _
  | mirror normal pivot => exact adds_aboutPivot hpart _ _ _

theorem adds_applyFrom (centroid : Vec3 R) (motion : Motion R) :
    Adds given single (part.applyFrom centroid motion) := by
  unfold applyFrom
  refine (adds_moveFrom hpart centroid motion.move).bind fun copy => ?_
  split
  · refine adds_groupAs .copies .union fun inner hmem => ?_
    rcases List.mem_cons.mp hmem with rfl | hmem
    · exact .inl hpart
    · rw [List.mem_singleton.mp hmem]
      exact mem_union_single
  · exact adds_unmoved mem_union_single

end Motions

/-! ## Replayed motions -/

theorem adds_followedAll {target : Part R} {paths : List (Part R)}
    (h : ∀ path ∈ paths, Adds given single (followed target path)) :
    Adds given id (followedAll target paths) := by
  induction paths with
  | nil => exact Adds.pure (List.forall_mem_nil _)
  | cons path rest ih =>
    rw [followedAll]
    obtain ⟨hpath, hrest⟩ := List.forall_mem_cons.mp h
    refine hpath.bind fun first => ?_
    refine ((ih hrest).mono Set.subset_union_left).bind fun others => ?_
    refine Adds.pure fun part hmem => ?_
    rcases List.mem_cons.mp hmem with rfl | hmem
    · exact .inl mem_union_single
    · exact .inr hmem

theorem adds_followed {target : Part R} (htarget : target ∈ given) (path : Part R) :
    Adds given single (followed target path) := by
  induction path using Part.induction with
  | step path ih =>
    have hall := adds_followedAll ih
    rw [followed_eq]
    split
    · refine hall.bind fun parts => Adds.part _ fun part hmem => ?_
      exact ⟨part, .inr hmem, .self⟩
    · exact hall.bind fun parts => adds_part_membersOf _ _ fun part hmem => .inr hmem
    · exact adds_unmoved htarget
    · exact adds_unmoved htarget

end Build

/-! ## All builders -/

/-- The constructions of one part from given parts. -/
inductive Builder [Zero R] [Neg R] [BEq R] (given : Set (Part R)) : Build (Part R) → Prop where
  /-- A primitive, a wrapper, a difference or any other module. -/
  | plain (kind : Kind) {parts : List (Part R)} (args : List (Value R))
    (named : Named (Value R)) :
    (∀ part ∈ parts, part ∈ given) → Builder given (Build.plain kind parts args named)
  /-- A union, an intersection or a hull. -/
  | group {kind : Kind} {parts : List (Part R)} : kind ∈ [.union, .intersection, .hull] →
    (∀ part ∈ parts, part ∈ given) → Builder given (Build.groupAs .group kind parts)
  | relabel {part : Part R} (label : String) : part ∈ given → Builder given (part.relabel label)
  | move {part : Part R} (centroid : Vec3 R) (move : Move R) :
    part ∈ given → Builder given (part.moveFrom centroid move)
  | apply {part : Part R} (centroid : Vec3 R) (motion : Motion R) :
    part ∈ given → Builder given (part.applyFrom centroid motion)
  | lift {part : Part R} (named : Named (Value R)) :
    part ∈ given → Builder given (part.liftWith named)
  | sweep {part : Part R} (named : Named (Value R)) :
    part ∈ given → Builder given (part.sweep named)
  | follow {part path : Part R} :
    part ∈ given → path ∈ given → Builder given (part.follow path)

/-- Whatever is built, the heap keeps its parts, and new parts stand on new serial numbers. -/
theorem Builder.adds [Zero R] [Neg R] [BEq R] {given : Set (Part R)}
    {construction : Build (Part R)} (h : Builder given construction) :
    Build.Adds given Build.single construction := by
  cases h with
  | plain kind args named hparts => exact Build.adds_ofKind kind args named .plain hparts
  | group _ hparts => exact Build.adds_groupAs .group _ hparts
  | relabel label hpart =>
    refine Build.Adds.part _ fun inner hmem => ?_
    exact ⟨_, hpart, Within.of_mem hmem⟩
  | move centroid move hpart => exact Build.adds_moveFrom hpart centroid move
  | apply centroid motion hpart => exact Build.adds_applyFrom hpart centroid motion
  | lift named hpart => exact Build.adds_moved hpart _ _ _
  | sweep named hpart => exact Build.adds_moved hpart _ _ _
  | follow hpart _ => exact Build.adds_followed hpart _

end SolidScript
