import SolidScript.Part.Primitive
import SolidScript.Part.Search
import SolidScript.Proofs.Group.Members
import SolidScript.Proofs.Motion.Stack

/-!
# Labelled parts are kept

A search for a label finds a part exactly if one with that label stands within the model
(`Part.exists_find_iff`). A group dissolves only parts that have no label or that of their kind, so
a part with any other label stays where it is, whatever is built around it: constructions enclose
the parts they are given (`Build.Encloses`), and over any number of them, one around the other, the
very part is still there and a search for its label succeeds (`Part.MadeFrom.keeps_labelled`).
-/

namespace SolidScript

open SolidScript.Part Space

variable {R : Type}

namespace Part

/-! ## Searches -/

variable {label : String} {pending : List (Part R)} {found part : Part R}

/-- What is pending after a part was visited: what stood within it apart from itself, and the
rest. -/
theorem mem_contents_cons {inner : Part R} {rest : List (Part R)} :
    inner ∈ contents (part :: rest) ↔
      inner = part ∨ inner ∈ contents (part.parts.reverse ++ rest) := by
  simp only [mem_contents, List.mem_cons, List.mem_append, List.mem_reverse, or_and_right,
    exists_or, exists_eq_left]
  rw [within_iff, or_assoc]

theorem findIn_eq_some (h : findIn label pending = some found) :
    found.label = some label ∧ found ∈ contents pending := by
  induction pending using findIn.induct label with
  | case1 =>
    rw [findIn] at h
    cases h
  | case2 part rest hlabel =>
    rw [findIn, if_pos hlabel] at h
    cases h
    exact ⟨beq_iff_eq.mp hlabel, mem_contents_cons.mpr (.inl rfl)⟩
  | case3 part rest hlabel ih =>
    rw [findIn, if_neg hlabel] at h
    rw [List.unattach_reverse, List.unattach_attach] at ih
    exact (ih h).imp_right fun hmem => mem_contents_cons.mpr (.inr hmem)

theorem findIn_eq_none (h : findIn label pending = none) :
    ∀ inner ∈ contents pending, inner.label ≠ some label := by
  induction pending using findIn.induct label with
  | case1 => simp
  | case2 part rest hlabel =>
    rw [findIn, if_pos hlabel] at h
    cases h
  | case3 part rest hlabel ih =>
    rw [findIn, if_neg hlabel] at h
    rw [List.unattach_reverse, List.unattach_attach] at ih
    intro inner hinner
    rcases mem_contents_cons.mp hinner with rfl | hmem
    · exact fun heq => hlabel (beq_iff_eq.mpr heq)
    · exact ih h inner hmem

theorem find_eq_ok (h : part.find label = .ok found) :
    found.label = some label ∧ Within found part := by
  unfold find at h
  cases hfind : findIn label [part] with
  | none =>
    rw [hfind] at h
    cases h
  | some other =>
    rw [hfind] at h
    cases h
    obtain ⟨hlabel, root, hroot, hw⟩ := findIn_eq_some hfind
    exact ⟨hlabel, List.mem_singleton.mp hroot ▸ hw⟩

theorem exists_find_iff :
    (∃ found, part.find label = .ok found) ↔
      ∃ inner, Within inner part ∧ inner.label = some label := by
  constructor
  · rintro ⟨found, hfind⟩
    obtain ⟨hlabel, hw⟩ := find_eq_ok hfind
    exact ⟨found, hw, hlabel⟩
  · rintro ⟨inner, hw, hlabel⟩
    unfold find
    cases hfind : findIn label [part] with
    | none =>
      have hnone := findIn_eq_none hfind inner ⟨part, List.mem_cons_self, hw⟩
      exact absurd hlabel hnone
    | some found => exact ⟨found, rfl⟩

/-! ## Groups -/

/-- A label that is not the name of a group keeps a part out of every group. -/
theorem not_absorbed_of_label {inner : Part R} (hlabel : inner.label = some label)
    (hother : label ∉ ["union", "intersection", "hull"]) {kind : Kind}
    (hkind : kind ∈ [.union, .intersection, .hull]) : ¬inner.isAbsorbedBy kind := by
  intro habsorbed
  obtain ⟨habsorbs, hdefault⟩ := isAbsorbedBy_iff.mp habsorbed
  have hname : label = inner.head.kind.name := by
    have hsome : inner.head.label = some label := hlabel
    rw [Head.hasDefaultLabel, hsome] at hdefault
    exact beq_iff_eq.mp hdefault
  -- Groups absorb groups, and the label would be the name of one.
  have hinner : inner.head.kind ∈ [.union, .intersection, .hull] := by
    unfold Kind.absorbs at habsorbs
    split at habsorbs
    · rcases (Bool.or_eq_true _ _).mp habsorbs with h | h
      · simp [beq_iff_eq.mp h]
      · simp [beq_iff_eq.mp h]
    · exact beq_iff_eq.mp habsorbs ▸ hkind
  exact hother (hname ▸ List.mem_map_of_mem (f := Kind.name) hinner)

theorem within_group {outer : Kind} {parts : List (Part R)} {inner : Part R}
    (hkept : ¬inner.isAbsorbedBy outer) (hpart : part ∈ parts) (hw : Within inner part)
    (role : Role) (next : Nat) : Within inner (Build.groupAs role outer parts next).1 := by
  obtain ⟨member, hmember, hin⟩ := exists_member_of_within hkept hw
  exact .inside (mem_membersOf_iff.mpr ⟨part, hpart, hmember⟩) hin

end Part

/-! ## Constructions around parts -/

variable [Zero R] [Neg R] [BEq R]

/-- The constructions around given parts, which put them together or put something around them. A
motion goes around a part wherever its centroid is. -/
inductive Build.Encloses : List (Part R) → Build (Part R) → Prop where
  /-- A wrapper or a glyph around one part, a difference of two, or any other module. -/
  | plain (kind : Kind) (parts : List (Part R)) (args : List (Value R)) (named : Named (Value R)) :
    Encloses parts (Build.plain kind parts args named)
  /-- A union, an intersection or a hull. -/
  | group {kind : Kind} (parts : List (Part R)) : kind ∈ [.union, .intersection, .hull] →
    Encloses parts (Build.groupAs .group kind parts)
  | move (part : Part R) (centroid : Vec3 R) (move : Move R) :
    Encloses [part] (part.moveFrom centroid move)
  | apply (part : Part R) (centroid : Vec3 R) (motion : Motion R) :
    Encloses [part] (part.applyFrom centroid motion)
  | lift (part : Part R) (named : Named (Value R)) : Encloses [part] (part.liftWith named)
  | sweep (part : Part R) (named : Named (Value R)) : Encloses [part] (part.sweep named)

namespace Part

variable {part : Part R} {label : String}

theorem within_moveFrom (part : Part R) (centroid : Vec3 R) (move : Move R) (next : Nat) :
    Within part (part.moveFrom centroid move next).1 := by
  refine moveFrom_property (fun moved hmoved serial head _ _ => ?_) Within.self centroid move next
  exact hmoved.trans (.of_mem List.mem_cons_self)

/-- A part with a label of its own stays within what is built around it. -/
theorem within_of_encloses {parts : List (Part R)} {construction : Build (Part R)}
    (h : Build.Encloses parts construction) (hpart : part ∈ parts) {inner : Part R}
    (hlabel : inner.label = some label) (hother : label ∉ ["union", "intersection", "hull"])
    (hw : Within inner part) (next : Nat) : Within inner (construction next).1 := by
  cases h with
  | plain kind parts args named => exact .inside hpart hw
  | group parts hkind =>
    exact within_group (not_absorbed_of_label hlabel hother hkind) hpart hw .group next
  | move source centroid move =>
    obtain rfl := List.mem_singleton.mp hpart
    exact hw.trans (part.within_moveFrom centroid move next)
  | apply source centroid motion =>
    obtain rfl := List.mem_singleton.mp hpart
    rw [applyFrom_eq]
    dsimp only
    split
    · -- The union of the part and its copy is a group like any other.
      have hkept := not_absorbed_of_label hlabel hother List.mem_cons_self
      exact within_group hkept List.mem_cons_self hw .copies _
    · exact hw.trans (part.within_moveFrom centroid motion.move next)
  | lift source named => exact .inside hpart hw
  | sweep source named => exact .inside hpart hw

/-- A part is made from a source by any number of constructions, each around what was made before
it and any other parts. -/
inductive MadeFrom (source : Part R) : Part R → Prop where
  | self : MadeFrom source source
  | step {part : Part R} {parts : List (Part R)} {construction : Build (Part R)} (next : Nat) :
    MadeFrom source part → part ∈ parts → Build.Encloses parts construction →
    MadeFrom source (construction next).1

/-- Whatever is made from a model, each part within it with a label other than that of a group is
the same part within the result, and a search that found one in the model finds one in the
result. -/
theorem MadeFrom.keeps_labelled {source result : Part R} (h : MadeFrom source result)
    (hother : label ∉ ["union", "intersection", "hull"]) :
    (∀ inner, Within inner source → inner.label = some label → Within inner result) ∧
      ∀ found, source.find label = .ok found →
        ∃ other, result.find label = .ok other ∧ other.label = some label ∧
          Within other result := by
  have hkeeps : ∀ inner, Within inner source → inner.label = some label → Within inner result := by
    intro inner hinner hlabel
    induction h with
    | self => exact hinner
    | step next _ hpart hencloses ih =>
      exact within_of_encloses hencloses hpart hlabel hother ih next
  refine ⟨hkeeps, fun found hfind => ?_⟩
  obtain ⟨hlabel, hw⟩ := find_eq_ok hfind
  obtain ⟨other, hfound⟩ := exists_find_iff.mpr ⟨found, hkeeps found hw hlabel, hlabel⟩
  exact ⟨other, hfound, find_eq_ok hfound⟩

end Part

/-! ## A bolt in a bracket -/

namespace Part

def bolt : Part Float := ⟨0, { Head.ofKind .cylinder [] ∅ .plain with label := some "bolt" }, []⟩

/-- Two unions, one in the other, that every union and every hull takes in. -/
def rail : Part Float :=
  ⟨2, .ofKind .union [] ∅ .group, [⟨1, .ofKind .union [] ∅ .group, [bolt]⟩]⟩

/-- The copy of a hull around the rail beside it, in color. -/
def bracket : Part Float :=
  let hull := (Build.hull [rail, rail] 3).1
  let pair := (hull.applyFrom 0 (Move.scale ⟨2, 2, 2⟩).doubling 4).1
  (pair.color (.text "red") 6).1

theorem madeFrom_bracket : MadeFrom rail bracket := by
  have hhull : MadeFrom rail (Build.hull [rail, rail] 3).1 :=
    .step 3 .self List.mem_cons_self (.group [rail, rail] (by decide))
  have hpair := hhull.step 4 List.mem_cons_self (.apply _ 0 (Move.scale ⟨2, 2, 2⟩).doubling)
  exact hpair.step 6 List.mem_cons_self (.plain .color [_] [.text "red"] ∅)

/-- The hull takes in both unions of each rail, and the bolt in them stays to be found. -/
theorem bolt_kept_in_bracket :
    MadeFrom rail bracket ∧ "bolt" ∉ ["union", "intersection", "hull"] ∧
      (Build.hull [rail, rail] 3).1.parts = [bolt, bolt] ∧ Within bolt bracket ∧
      ∃ found, bracket.find "bolt" = .ok found ∧ found.label = some "bolt" := by
  have hother : "bolt" ∉ ["union", "intersection", "hull"] := by decide
  have hbolt : Within bolt rail := .inside List.mem_cons_self (.of_mem List.mem_cons_self)
  obtain ⟨hkeeps, hfinds⟩ := madeFrom_bracket.keeps_labelled hother
  obtain ⟨first, hfirst⟩ := exists_find_iff.mpr ⟨bolt, hbolt, rfl⟩
  obtain ⟨found, hfound, hlabel, -⟩ := hfinds first hfirst
  exact ⟨madeFrom_bracket, hother, rfl, hkeeps bolt hbolt rfl, found, hfound, hlabel⟩

end Part

end SolidScript
