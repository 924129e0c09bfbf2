import Mathlib.Data.List.Lex
import SolidScript.Proofs.Search.Labelled

/-!
# Where a search ends

One part may stand in many places of a model, and a place is given by the slots that lead down to
it. A search visits places in the order `Place.Sooner`: a part before all that stands below it, and
below it the last slot first. What a search finds is the part at the soonest place with the label
(`Part.find_firstLabelled`): its agenda is searched part by part (`Part.findIn_eq_findSome?`), so
the place is known by induction over the model.
-/

namespace SolidScript

/-- A place in a model, by the slots on the way down to it. -/
abbrev Place := List Nat

/-- The order of a search: down from the top, and the later slots first. -/
def Place.Sooner (place other : Place) : Prop :=
  List.Lex (fun slot slot' => slot' < slot) place other

instance : Std.Trichotomous Place.Sooner :=
  inferInstanceAs (Std.Trichotomous (List.Lex fun slot slot' : Nat => slot' < slot))

namespace Part

variable {R : Type} {label : String} {part found : Part R}

/-! ## Places -/

def atPlace? (part : Part R) : Place → Option (Part R)
  | [] => some part
  | slot :: rest => part.parts[slot]?.bind fun inner => inner.atPlace? rest

@[simp] theorem atPlace?_nil (part : Part R) : part.atPlace? [] = some part := rfl

theorem atPlace?_cons_eq_some_iff {slot : Nat} {rest : Place} :
    part.atPlace? (slot :: rest) = some found ↔
      ∃ inner, part.parts[slot]? = some inner ∧ inner.atPlace? rest = some found :=
  Option.bind_eq_some_iff

theorem within_iff_exists_place {inner part : Part R} :
    Within inner part ↔ ∃ place, part.atPlace? place = some inner := by
  constructor
  · intro h
    induction h with
    | self => exact ⟨[], rfl⟩
    | inside hmem _ ih =>
      obtain ⟨place, hplace⟩ := ih
      obtain ⟨slot, hslot⟩ := List.mem_iff_getElem?.mp hmem
      exact ⟨slot :: place, atPlace?_cons_eq_some_iff.mpr ⟨_, hslot, hplace⟩⟩
  · rintro ⟨place, hplace⟩
    induction place generalizing part with
    | nil => exact Option.some.inj hplace ▸ .self
    | cons slot rest ih =>
      obtain ⟨child, hchild, hrest⟩ := atPlace?_cons_eq_some_iff.mp hplace
      exact .inside (List.mem_of_getElem? hchild) (ih hrest)

/-! ## Agendas of a search -/

theorem findIn_append (label : String) (front rest : List (Part R)) :
    findIn label (front ++ rest) = (findIn label front).or (findIn label rest) := by
  induction front using findIn.induct label with
  | case1 => rw [findIn, List.nil_append, Option.none_or]
  | case2 part front hlabel =>
    rw [List.cons_append, findIn, if_pos hlabel, findIn, if_pos hlabel, Option.some_or]
  | case3 part front hlabel ih =>
    rw [List.unattach_reverse, List.unattach_attach] at ih
    rw [List.cons_append, findIn, if_neg hlabel, findIn, if_neg hlabel, ← List.append_assoc, ih]

theorem findIn_eq_findSome? (label : String) (pending : List (Part R)) :
    findIn label pending = pending.findSome? fun part => findIn label [part] := by
  induction pending with
  | nil => rw [findIn, List.findSome?_nil]
  | cons part rest ih =>
    rw [← List.singleton_append, findIn_append, ih, List.findSome?_append, List.findSome?_singleton]

/-- A part is looked at before those below it, and these from the last one to the first. -/
theorem findIn_singleton (label : String) (part : Part R) :
    findIn label [part] =
      if part.label == some label then some part
      else part.parts.reverse.findSome? fun inner => findIn label [inner] := by
  rw [findIn, List.append_nil, findIn_eq_findSome? label part.parts.reverse]

/-! ## The first part with a label -/

/-- At a place stands a part with the label, and none does at a place that is visited sooner. -/
structure FirstLabelled (label : String) (part : Part R) (place : Place) (found : Part R) :
    Prop where
  stands : part.atPlace? place = some found
  labelled : found.label = some label
  first : ∀ other inner, part.atPlace? other = some inner → Place.Sooner other place →
    inner.label ≠ some label

theorem FirstLabelled.unique {place place' : Place} {other : Part R}
    (h : FirstLabelled label part place found) (h' : FirstLabelled label part place' other) :
    found = other := by
  have hplace : place = place' :=
    Std.Trichotomous.trichotomous (r := Place.Sooner) place place'
      (fun hsooner => h'.first place found h.stands hsooner h.labelled)
      (fun hsooner => h.first place' other h'.stands hsooner h'.labelled)
  have hstands := h.stands
  rw [hplace, h'.stands] at hstands
  exact (Option.some.inj hstands).symm

theorem firstLabelled_self (hlabel : part.label = some label) :
    FirstLabelled label part [] part where
  stands := rfl
  labelled := hlabel
  first _ _ _ hsooner := (List.not_lex_nil hsooner).elim

/-- The first one in a slot is the first one of the part, if the part itself and all parts in later
slots are without the label. -/
theorem FirstLabelled.inSlot {inner : Part R} {slot : Nat} {place : Place}
    (h : FirstLabelled label inner place found) (hlabel : part.label ≠ some label)
    (hslot : part.parts[slot]? = some inner)
    (hlater : ∀ later child, slot < later → part.parts[later]? = some child →
      ∀ other, Within other child → other.label ≠ some label) :
    FirstLabelled label part (slot :: place) found where
  stands := atPlace?_cons_eq_some_iff.mpr ⟨inner, hslot, h.stands⟩
  labelled := h.labelled
  first := by
    intro other below hother hsooner
    cases hsooner with
    | nil => exact Option.some.inj hother ▸ hlabel
    | rel hlt =>
      obtain ⟨child, hchild, hbelow⟩ := atPlace?_cons_eq_some_iff.mp hother
      exact hlater _ child hlt hchild below (within_iff_exists_place.mpr ⟨_, hbelow⟩)
    | cons hrest =>
      obtain ⟨child, hchild, hbelow⟩ := atPlace?_cons_eq_some_iff.mp hother
      obtain rfl := Option.some.inj (hslot.symm.trans hchild)
      exact h.first _ below hbelow hrest

theorem exists_firstLabelled (h : findIn label [part] = some found) :
    ∃ place, FirstLabelled label part place found := by
  induction part using Part.induction with
  | step part ih =>
    rw [findIn_singleton] at h
    split at h
    · rename_i hlabel
      exact ⟨[], Option.some.inj h ▸ firstLabelled_self (beq_iff_eq.mp hlabel)⟩
    · rename_i hlabel
      obtain ⟨later, inner, sooner, hparts, hfound, hlater⟩ := List.findSome?_eq_some_iff.mp h
      -- The slots are counted from the other end.
      have hsplit : part.parts = sooner.reverse ++ inner :: later.reverse := by
        rw [← List.reverse_reverse part.parts, hparts, List.reverse_append, List.reverse_cons,
          List.append_assoc, List.singleton_append]
      have hinner : inner ∈ part.parts := hsplit ▸ List.mem_append_right _ List.mem_cons_self
      obtain ⟨place, hfirst⟩ := ih inner hinner hfound
      refine ⟨sooner.reverse.length :: place, hfirst.inSlot ?_ ?_ ?_⟩
      · exact fun heq => hlabel (beq_iff_eq.mpr heq)
      · rw [hsplit, List.getElem?_append_right le_rfl, Nat.sub_self, List.getElem?_cons_zero]
      · intro slot child hslot hchild
        rw [hsplit, List.getElem?_append_right hslot.le, List.getElem?_cons,
          if_neg (Nat.sub_ne_zero_of_lt hslot)] at hchild
        have hmem := List.mem_reverse.mp (List.mem_of_getElem? hchild)
        intro other hother
        exact findIn_eq_none (hlater child hmem) other ⟨child, List.mem_cons_self, hother⟩

/-! ## Searches -/

theorem findIn_of_find (h : part.find label = .ok found) : findIn label [part] = some found := by
  unfold find at h
  split at h
  · rename_i hfound
    rw [hfound, Except.ok.inj h]
  · cases h

theorem find_eq_error_iff {fault : Fault} :
    part.find label = .error fault ↔
      fault = .noSuchLabel label ∧ ∀ inner, Within inner part → inner.label ≠ some label := by
  constructor
  · intro h
    refine ⟨?_, fun inner hinner hlabel => ?_⟩
    · unfold find at h
      split at h <;> cases h
      rfl
    · obtain ⟨found, hfound⟩ := exists_find_iff.mpr ⟨inner, hinner, hlabel⟩
      rw [hfound] at h
      cases h
  · rintro ⟨rfl, hnone⟩
    unfold find
    split
    · rename_i found hfound
      obtain ⟨place, hfirst⟩ := exists_firstLabelled hfound
      have hwithin := within_iff_exists_place.mpr ⟨place, hfirst.stands⟩
      exact absurd hfirst.labelled (hnone found hwithin)
    · rfl

/-- A glyph has no label, so the search goes on to the part that it marks. -/
theorem find_wrap {kind : Kind} (hglyph : kind.isGlyph) (args : List (Value R))
    (named : Named (Value R)) (next : Nat) :
    (part.wrap kind args named next).1.find label = part.find label := by
  have hlabel : (part.wrap kind args named next).1.label = none := if_pos hglyph
  have hmarked : findIn label [(part.wrap kind args named next).1] = findIn label [part] := by
    rw [findIn_singleton, hlabel, if_neg (by simp)]
    exact List.findSome?_singleton
  unfold find
  rw [hmarked]

/-- A search finds the part at the soonest place with the label, the very part that stands there. It
fails exactly if no part within the model has the label, and names it. A part without a label is
never found, but whatever is labelled within it counts; so a glyph around a model changes no
search. -/
theorem find_firstLabelled (part : Part R) (label : String) :
    (∀ found, part.find label = .ok found ↔ ∃ place, FirstLabelled label part place found) ∧
      (∀ fault, part.find label = .error fault ↔
        fault = .noSuchLabel label ∧ ∀ inner, Within inner part → inner.label ≠ some label) ∧
      (∀ modifier, Within modifier part → modifier.label = none →
        part.find label ≠ .ok modifier ∧
          ∀ inner, Within inner modifier → inner.label = some label →
            ∃ found, part.find label = .ok found) ∧
      ∀ (kind : Kind) (args : List (Value R)) (named : Named (Value R)) (next : Nat),
        kind.isGlyph → (part.wrap kind args named next).1.find label = part.find label := by
  refine ⟨fun found => ?_, fun fault => ?_, fun modifier hmodifier hlabel => ⟨?_, ?_⟩, ?_⟩
  · constructor
    · exact fun h => exists_firstLabelled (findIn_of_find h)
    · rintro ⟨place, hfirst⟩
      have hwithin := within_iff_exists_place.mpr ⟨place, hfirst.stands⟩
      obtain ⟨other, hother⟩ := exists_find_iff.mpr ⟨found, hwithin, hfirst.labelled⟩
      obtain ⟨place', hfirst'⟩ := exists_firstLabelled (findIn_of_find hother)
      rw [hother, hfirst'.unique hfirst]
  · exact find_eq_error_iff
  · intro hfound
    have hsome := (find_eq_ok hfound).1
    rw [hlabel] at hsome
    cases hsome
  · exact fun inner hinner hsome => exists_find_iff.mpr ⟨inner, hinner.trans hmodifier, hsome⟩
  · exact fun kind args named next hglyph => find_wrap hglyph args named next

/-! ## Three pegs -/

def peg (serial : Nat) (parts : List (Part Float)) : Part Float :=
  ⟨serial, { Head.ofKind .cylinder [] ∅ .plain with label := some "peg" }, parts⟩

def markedPeg : Part Float := ⟨3, .ofKind .highlight [] ∅ .plain, [peg 2 [peg 1 []]]⟩

/-- A peg in the first slot, the marked one in the next, and a part without a peg in the last. -/
def rack : Part Float :=
  ⟨5, .ofKind .union [] ∅ .group, [peg 0 [], markedPeg, ⟨4, .ofKind .cube [] ∅ .plain, []⟩]⟩

/-- Of the three pegs the marked one is found. -/
theorem find_peg_in_rack :
    rack.find "peg" = .ok (peg 2 [peg 1 []]) ∧ rack.find "hook" = .error (.noSuchLabel "hook") ∧
      rack.find "peg" ≠ .ok markedPeg ∧
      (rack.wrap .background [] ∅ 6).1.find "peg" = .ok (peg 2 [peg 1 []]) := by
  obtain ⟨hfinds, -, hmodifiers, hwraps⟩ := rack.find_firstLabelled "peg"
  have hmarked : FirstLabelled "peg" markedPeg [0] (peg 2 [peg 1 []]) :=
    (firstLabelled_self rfl).inSlot (by decide) rfl fun
      | later + 1, child, _, hchild => by simp [markedPeg] at hchild
  have hrack : FirstLabelled "peg" rack [1, 0] (peg 2 [peg 1 []]) := by
    refine hmarked.inSlot (by decide) rfl fun later child hlater hchild => ?_
    match later, hlater, hchild with
    | 2, _, hchild =>
      obtain rfl := Option.some.inj hchild
      exact forall_within_iff.mpr ⟨by decide, List.forall_mem_nil _⟩
  have hpeg := (hfinds _).mpr ⟨_, hrack⟩
  have hnone : ∀ inner, Within inner rack → inner.label ≠ some "hook" := by
    have hleaf (serial : Nat) : ∀ inner, Within inner (peg serial []) → inner.label ≠ some "hook" :=
      forall_within_iff.mpr ⟨by simp [peg, label], List.forall_mem_nil _⟩
    refine forall_within_iff.mpr ⟨by decide, List.forall_mem_cons.mpr ⟨hleaf 0, ?_⟩⟩
    refine List.forall_mem_cons.mpr ⟨?_, List.forall_mem_singleton.mpr ?_⟩
    · refine forall_within_iff.mpr ⟨by decide, List.forall_mem_singleton.mpr ?_⟩
      exact forall_within_iff.mpr ⟨by decide, List.forall_mem_singleton.mpr (hleaf 1)⟩
    · exact forall_within_iff.mpr ⟨by decide, List.forall_mem_nil _⟩
  have hhook := ((rack.find_firstLabelled "hook").2.1 _).mpr ⟨rfl, hnone⟩
  have hwithin : Within markedPeg rack :=
    .of_mem (List.mem_cons_of_mem _ List.mem_cons_self)
  have hnever := (hmodifiers markedPeg hwithin rfl).1
  exact ⟨hpeg, hhook, hnever, (hwraps .background [] ∅ 6 rfl).trans hpeg⟩

end Part

end SolidScript
