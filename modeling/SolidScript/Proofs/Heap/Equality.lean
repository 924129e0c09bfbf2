import SolidScript.Part.Search
import SolidScript.Proofs.Heap.Basic
import SolidScript.Proofs.Value.Equality

/-!
# Equal parts on a heap

A part is equal to itself, whatever its arguments, and to a part that is alike on the outside and
has equal parts (`Part.beq_iff`). On a heap parts with one serial number are one part, and equality
is transitive (`IsHeap.beq_trans`). Equal parts have equal values under every fold that does not
tell heads apart that are alike (`IsHeap.fold_eq_of_beq`), and searches for a label end at equal
parts in them (`IsHeap.find_of_beq`).
-/

namespace SolidScript

open SolidScript.Part

variable {R α β : Type}

/-! ## Lists place by place -/

theorem forall₂_imp_of_mem {r s : α → β → Prop} {as : List α} {bs : List β}
    (h : List.Forall₂ r as bs) (himp : ∀ a ∈ as, ∀ b ∈ bs, r a b → s a b) :
    List.Forall₂ s as bs := by
  induction h with
  | nil => exact .nil
  | cons hab _ ih =>
    refine .cons (himp _ List.mem_cons_self _ List.mem_cons_self hab) (ih fun a ha b hb => ?_)
    exact himp a (List.mem_cons_of_mem _ ha) b (List.mem_cons_of_mem _ hb)

theorem map_eq_of_forall₂ {r : α → α → Prop} {f : α → β} {as bs : List α}
    (h : List.Forall₂ r as bs) (himp : ∀ a ∈ as, ∀ b ∈ bs, r a b → f a = f b) :
    as.map f = bs.map f := by
  have hmaps : List.Forall₂ Eq (as.map f) (bs.map f) := by
    rw [List.forall₂_map_left_iff, List.forall₂_map_right_iff]
    exact forall₂_imp_of_mem h himp
  exact List.forall₂_eq_eq_eq ▸ hmaps

theorem forall₂_trans_of_mem {r : α → α → Prop} {as bs cs : List α} (h : List.Forall₂ r as bs)
    (h' : List.Forall₂ r bs cs)
    (htrans : ∀ a ∈ as, ∀ b ∈ bs, r a b → ∀ c ∈ cs, r b c → r a c) : List.Forall₂ r as cs := by
  induction h generalizing cs with
  | nil => exact h'
  | cons hab _ ih =>
    cases h' with
    | cons hbc hrest =>
      refine .cons (htrans _ List.mem_cons_self _ List.mem_cons_self hab _ List.mem_cons_self hbc)
        (ih hrest fun a ha b hb hab c hc => ?_)
      exact htrans a (List.mem_cons_of_mem _ ha) b (List.mem_cons_of_mem _ hb) hab c
        (List.mem_cons_of_mem _ hc)

/-! ## Heads -/

/-- Kinds, labels and arguments are equal; how the parts were composed does not count. -/
structure Head.Alike [BEq R] (head other : Head R) : Prop where
  kind : head.kind = other.kind
  label : head.label = other.label
  args : head.args == other.args
  named : head.named == other.named

namespace Head.Alike

variable [BEq R] [PartialEquivBEq R] {first second third : Head R}

theorem symm (h : first.Alike second) : second.Alike first :=
  ⟨h.kind.symm, h.label.symm, BEq.symm h.args, BEq.symm h.named⟩

theorem trans (h : first.Alike second) (h' : second.Alike third) : first.Alike third :=
  ⟨h.kind.trans h'.kind, h.label.trans h'.label, BEq.trans h.args h'.args,
    BEq.trans h.named h'.named⟩

end Head.Alike

def Head.Respected [BEq R] (rule : Head R → α) : Prop :=
  ∀ head other : Head R, head.Alike other → rule head = rule other

/-! ## Parts -/

namespace Part

variable [BEq R]

theorem beqAll_eq (as bs : List (Part R)) : beqAll as bs = (as == bs) := by
  induction as generalizing bs with
  | nil => cases bs <;> rfl
  | cons a as ih =>
    cases bs with
    | nil => rfl
    | cons b bs =>
      rw [beqAll, ih, List.cons_beq_cons]
      rfl

/-- Equal parts are the same part, or alike on the outside with equal parts in order. -/
theorem beq_iff {a b : Part R} :
    a == b ↔ a.serial = b.serial ∨
      a.head.Alike b.head ∧ List.Forall₂ (fun a b => a == b) a.parts b.parts := by
  obtain ⟨serial, head, parts⟩ := a
  obtain ⟨serial', head', parts'⟩ := b
  rw [← list_beq_iff, ← beqAll_eq]
  show beq _ _ = true ↔ _
  simp only [beq, Bool.or_eq_true, Bool.and_eq_true, beq_iff_eq]
  refine or_congr_right (and_congr_left fun _ => ?_)
  exact ⟨fun ⟨⟨⟨hkind, hlabel⟩, hargs⟩, hnamed⟩ => ⟨hkind, hlabel, hargs, hnamed⟩,
    fun h => ⟨⟨⟨h.kind, h.label⟩, h.args⟩, h.named⟩⟩

/-- A part is equal to itself, also when its arguments are not equal to themselves. -/
instance : ReflBEq (Part R) := ⟨beq_iff.mpr (.inl rfl)⟩

theorem beq_symm [PartialEquivBEq R] {a b : Part R} (h : a == b) : b == a := by
  induction a using Part.induction generalizing b with
  | step a ih =>
    rcases beq_iff.mp h with hserial | ⟨halike, hparts⟩
    · exact beq_iff.mpr (.inl hserial.symm)
    · refine beq_iff.mpr (.inr ⟨halike.symm, List.Forall₂.flip ?_⟩)
      exact forall₂_imp_of_mem hparts fun inner hinner other _ => ih inner hinner

end Part

namespace IsHeap

variable [BEq R] {parts : Set (Part R)} {next : Nat} (heap : IsHeap parts next)

include heap

section Pair

variable {a b : Part R} (ha : a ∈ parts) (hb : b ∈ parts)

include ha hb

/-- On a heap a serial number stands for one part. -/
theorem eq_or_alike_of_beq (h : a == b) :
    a = b ∨ a.head.Alike b.head ∧ List.Forall₂ (fun a b => a == b) a.parts b.parts :=
  (beq_iff.mp h).imp_left (heap.apart ha hb)

theorem parts_of_beq (h : a == b) : List.Forall₂ (fun a b => a == b) a.parts b.parts := by
  rcases heap.eq_or_alike_of_beq ha hb h with rfl | ⟨-, hparts⟩
  · exact List.forall₂_same.mpr fun _ _ => BEq.rfl
  · exact hparts

/-- Nothing tells equal parts apart that does not tell heads apart that are alike. -/
theorem rule_eq_of_beq {rule : Head R → α} (hrule : Head.Respected rule) (h : a == b) :
    rule a.head = rule b.head := by
  rcases heap.eq_or_alike_of_beq ha hb h with rfl | ⟨halike, -⟩
  · rfl
  · exact hrule a.head b.head halike

theorem label_eq_of_beq (h : a == b) : a.label = b.label :=
  heap.rule_eq_of_beq ha hb (fun _ _ halike => halike.label) h

end Pair

/-- The serial number may settle the first two parts and not the others, so the parts below are
compared in each case. -/
theorem beq_trans [PartialEquivBEq R] {a b c : Part R} (ha : a ∈ parts) (hb : b ∈ parts)
    (hc : c ∈ parts) (h : a == b) (h' : b == c) : a == c := by
  induction a using Part.induction generalizing b c with
  | step a ih =>
    rcases heap.eq_or_alike_of_beq ha hb h with rfl | ⟨halike, hparts⟩
    · exact h'
    rcases heap.eq_or_alike_of_beq hb hc h' with rfl | ⟨halike', hparts'⟩
    · exact h
    refine beq_iff.mpr (.inr ⟨halike.trans halike', ?_⟩)
    have hstep : ∀ inner ∈ a.parts, ∀ other ∈ b.parts, inner == other →
        ∀ last ∈ c.parts, other == last → inner == last := by
      intro inner hinner other hother hfirst last hlast
      exact ih inner hinner (heap.closed a ha inner hinner) (heap.closed b hb other hother)
        (heap.closed c hc last hlast) hfirst
    exact forall₂_trans_of_mem hparts hparts' hstep

/-- Equal parts have equal values under every fold that does not tell heads apart that are
alike. -/
theorem fold_eq_of_beq {rule : Head R → List α → α} (hrule : Head.Respected rule) {a b : Part R}
    (ha : a ∈ parts) (hb : b ∈ parts) (h : a == b) : a.fold rule = b.fold rule := by
  induction a using Part.induction generalizing b with
  | step a ih =>
    have hvalues : a.parts.map (fold rule) = b.parts.map (fold rule) :=
      map_eq_of_forall₂ (heap.parts_of_beq ha hb h) fun inner hinner other hother =>
        ih inner hinner (heap.closed a ha inner hinner) (heap.closed b hb other hother)
    rw [fold_eq, fold_eq, hvalues, heap.rule_eq_of_beq ha hb hrule h]

/-! ## Searches -/

omit [BEq R] in
theorem mem_of_mem_pending {part : Part R} {rest : List (Part R)} (hpart : part ∈ parts)
    (hrest : ∀ other ∈ rest, other ∈ parts) :
    ∀ other ∈ part.parts.reverse ++ rest, other ∈ parts := by
  refine List.forall_mem_append.mpr ⟨fun inner hinner => ?_, hrest⟩
  exact heap.closed part hpart inner (List.mem_reverse.mp hinner)

theorem findIn_of_beq (label : String) (as bs : List (Part R)) (has : ∀ a ∈ as, a ∈ parts)
    (hbs : ∀ b ∈ bs, b ∈ parts) (h : List.Forall₂ (fun a b => a == b) as bs) :
    Option.Rel (fun a b => a == b) (findIn label as) (findIn label bs) := by
  induction as using findIn.induct label generalizing bs with
  | case1 =>
    cases h
    rw [findIn]
    exact .none
  | case2 a as hfound =>
    cases h with
    | @cons _ b _ bs hab _ =>
      have hlabel := heap.label_eq_of_beq (has a List.mem_cons_self) (hbs b List.mem_cons_self) hab
      rw [findIn, findIn, if_pos hfound, if_pos (hlabel ▸ hfound)]
      exact .some hab
  | case3 a as hother ih =>
    cases h with
    | @cons _ b _ bs hab hrest =>
      obtain ⟨ha, has⟩ := List.forall_mem_cons.mp has
      obtain ⟨hb, hbs⟩ := List.forall_mem_cons.mp hbs
      have hlabel := heap.label_eq_of_beq ha hb hab
      rw [findIn, findIn, if_neg hother, if_neg (hlabel ▸ hother)]
      rw [List.unattach_reverse, List.unattach_attach] at ih
      have hinner := List.forall₂_reverse_iff.mpr (heap.parts_of_beq ha hb hab)
      exact ih _ (heap.mem_of_mem_pending ha has) (heap.mem_of_mem_pending hb hbs)
        (List.rel_append hinner hrest)

/-- Searches for a label end at equal parts in equal parts, or fail in both. -/
theorem find_of_beq {a b : Part R} (ha : a ∈ parts) (hb : b ∈ parts) (h : a == b)
    (label : String) :
    (∃ found other, a.find label = .ok found ∧ b.find label = .ok other ∧ found == other) ∨
      a.find label = .error (.noSuchLabel label) ∧ b.find label = .error (.noSuchLabel label) := by
  have hrel := heap.findIn_of_beq label [a] [b] (List.forall_mem_singleton.mpr ha)
    (List.forall_mem_singleton.mpr hb) (.cons h .nil)
  unfold find
  generalize findIn label [a] = result, findIn label [b] = result' at hrel
  cases hrel with
  | none => exact .inr ⟨rfl, rfl⟩
  | some heq => exact .inl ⟨_, _, rfl, rfl, heq⟩

end IsHeap

end SolidScript
