import Mathlib.Data.List.Forall2
import SolidScript.Proofs.Number.Decoded
import SolidScript.Script.Arguments

/-!
# Equal arguments

Equality of values goes place by place into lists, and down to numbers. It is symmetric and
transitive where equality of numbers is, and not reflexive where that is not. Equal values are
written alike, the same text or the same fault (`Value.script_eq_of_beq`), and so are equal
arguments (`Script.arguments_eq_of_beq`).
-/

namespace SolidScript

/-! ## Lists and pairs -/

section Lists

variable {α β : Type} [BEq α] [BEq β]

theorem list_beq_iff {as bs : List α} : as == bs ↔ List.Forall₂ (fun a b => a == b) as bs := by
  induction as generalizing bs with
  | nil => cases bs <;> simp
  | cons a as ih => cases bs <;> simp [ih]

instance partialEquivBEq_list [PartialEquivBEq α] : PartialEquivBEq (List α) where
  symm {as bs} h := by
    rw [list_beq_iff] at h ⊢
    exact h.flip.imp fun _ _ => BEq.symm
  trans {as bs cs} h h' := by
    rw [list_beq_iff] at h h' ⊢
    induction h generalizing cs with
    | nil => exact h'
    | cons hab _ ih =>
      cases h' with
      | cons hbc hrest => exact .cons (BEq.trans hab hbc) (ih hrest)

instance partialEquivBEq_prod [PartialEquivBEq α] [PartialEquivBEq β] :
    PartialEquivBEq (α × β) where
  symm {a b} h := by
    obtain ⟨h₁, h₂⟩ := (Bool.and_eq_true _ _).mp h
    exact (Bool.and_eq_true _ _).mpr ⟨BEq.symm h₁, BEq.symm h₂⟩
  trans {a b c} h h' := by
    obtain ⟨h₁, h₂⟩ := (Bool.and_eq_true _ _).mp h
    obtain ⟨h₁', h₂'⟩ := (Bool.and_eq_true _ _).mp h'
    exact (Bool.and_eq_true _ _).mpr ⟨BEq.trans h₁ h₁', BEq.trans h₂ h₂'⟩

end Lists

/-! ## Values -/

namespace Value

variable {R : Type} [BEq R]

mutual

theorem beq_symm [PartialEquivBEq R] : ∀ {a b : Value R}, a.beq b → b.beq a
  | .bool _, .bool _, h => BEq.symm h
  | .int _, .int _, h => BEq.symm h
  | .real _, .real _, h => BEq.symm h
  | .text _, .text _, h => BEq.symm h
  | .ident _, .ident _, h => BEq.symm h
  | .list _, .list _, h => beqAll_symm h

theorem beqAll_symm [PartialEquivBEq R] : ∀ {as bs : List (Value R)}, beqAll as bs → beqAll bs as
  | [], [], h => h
  | _ :: _, _ :: _, h =>
    have ⟨hfirst, hrest⟩ := (Bool.and_eq_true _ _).mp h
    (Bool.and_eq_true _ _).mpr ⟨beq_symm hfirst, beqAll_symm hrest⟩

end

mutual

theorem beq_trans [PartialEquivBEq R] : ∀ {a b c : Value R}, a.beq b → b.beq c → a.beq c
  | .bool _, .bool _, .bool _, h, h' => BEq.trans h h'
  | .int _, .int _, .int _, h, h' => BEq.trans h h'
  | .real _, .real _, .real _, h, h' => BEq.trans h h'
  | .text _, .text _, .text _, h, h' => BEq.trans h h'
  | .ident _, .ident _, .ident _, h, h' => BEq.trans h h'
  | .list _, .list _, .list _, h, h' => beqAll_trans h h'

theorem beqAll_trans [PartialEquivBEq R] :
    ∀ {as bs cs : List (Value R)}, beqAll as bs → beqAll bs cs → beqAll as cs
  | [], [], _, _, h => h
  | _ :: _, _ :: _, _ :: _, h, h' =>
    have ⟨hfirst, hrest⟩ := (Bool.and_eq_true _ _).mp h
    have ⟨hfirst', hrest'⟩ := (Bool.and_eq_true _ _).mp h'
    (Bool.and_eq_true _ _).mpr ⟨beq_trans hfirst hfirst', beqAll_trans hrest hrest'⟩

end

instance [PartialEquivBEq R] : PartialEquivBEq (Value R) := ⟨beq_symm, beq_trans⟩

mutual

/-- Equal values are written alike. Zero is equal to negative zero and has no sign in a text. -/
theorem script_eq_of_beq : ∀ {a b : Value Float}, a == b → a.script = b.script
  | .bool _, .bool _, h => congrArg (fun b => script (.bool b)) (eq_of_beq h)
  | .int _, .int _, h => congrArg (fun n => script (.int n)) (eq_of_beq h)
  | .real x, .real y, h => by
    have hxy : x == y := h
    rw [script, script, Number.nonFinite?_eq_of_beq hxy, Number.literal_eq_of_beq hxy]
  | .text _, .text _, h => congrArg (fun s => script (.text s)) (eq_of_beq h)
  | .ident _, .ident _, h => congrArg (fun name => script (.ident name)) (eq_of_beq h)
  | .list _, .list _, h => by rw [script, script, scriptAll_eq_of_beqAll h]

theorem scriptAll_eq_of_beqAll :
    ∀ {as bs : List (Value Float)}, beqAll as bs → scriptAll as = scriptAll bs
  | [], [], _ => rfl
  | _ :: _, _ :: _, h => by
    obtain ⟨hfirst, hrest⟩ := (Bool.and_eq_true _ _).mp h
    rw [scriptAll, scriptAll, script_eq_of_beq hfirst, scriptAll_eq_of_beqAll hrest]

end

theorem beqAll_eq (as bs : List (Value R)) : beqAll as bs = (as == bs) := by
  induction as generalizing bs with
  | nil => cases bs <;> rfl
  | cons a as ih =>
    cases bs with
    | nil => rfl
    | cons b bs =>
      rw [beqAll, ih, List.cons_beq_cons]
      rfl

end Value

/-! ## Arguments -/

theorem Named.beq_eq {V : Type} [BEq V] (a b : Named V) : (a == b) = (a.entries == b.entries) := rfl

instance {V : Type} [BEq V] [PartialEquivBEq V] : PartialEquivBEq (Named V) where
  symm h := by
    rw [Named.beq_eq] at h ⊢
    exact BEq.symm h
  trans h h' := by
    rw [Named.beq_eq] at h h' ⊢
    exact BEq.trans h h'

namespace Script

theorem entryText_eq_of_beq {entry other : String × Value Float} (h : entry == other) :
    isInternal entry.1 = isInternal other.1 ∧ entryText entry = entryText other := by
  obtain ⟨hkey, hvalue⟩ := (Bool.and_eq_true _ _).mp h
  unfold entryText
  rw [eq_of_beq hkey, Value.script_eq_of_beq hvalue]
  exact ⟨rfl, rfl⟩

theorem written_texts_eq_of_beq {named others : Named (Value Float)} (h : named == others) :
    (written named).map entryText = (written others).map entryText := by
  rw [Named.beq_eq, list_beq_iff] at h
  unfold written
  generalize named.entries = entries, others.entries = entries' at h
  induction h with
  | nil => rfl
  | cons hentry _ ih =>
    obtain ⟨hinternal, htext⟩ := entryText_eq_of_beq hentry
    rw [List.filter_cons, List.filter_cons, hinternal]
    split
    · rw [List.map_cons, List.map_cons, htext, ih]
    · exact ih

theorem arguments_eq_of_beq {args others : List (Value Float)} {named named' : Named (Value Float)}
    (hargs : args == others) (hnamed : named == named') :
    arguments args named = arguments others named' := by
  unfold arguments
  rw [Value.scriptAll_eq_of_beqAll (Value.beqAll_eq args others ▸ hargs),
    written_texts_eq_of_beq hnamed]

end Script

end SolidScript
