import Mathlib.Data.List.Forall2
import SolidScript.Fault

/-!
# Results with faults

What can be told from a result that is a value, and which fault a result has otherwise. Of results
that are collected the first fault counts (`Fault.of?_collect`).
-/

namespace SolidScript.Fault

variable {α β : Type}

theorem exists_of_bind {first : Except Fault α} {next : α → Except Fault β} {b : β}
    (h : first >>= next = .ok b) : ∃ a, first = .ok a ∧ next a = .ok b := by
  cases first with
  | error fault => cases h
  | ok a => exact ⟨a, rfl, h⟩

theorem exists_of_map {result : Except Fault α} {f : α → β} {b : β} (h : result.map f = .ok b) :
    ∃ a, result = .ok a ∧ b = f a := by
  cases result with
  | error fault => cases h
  | ok a => exact ⟨a, rfl, (Except.ok.inj h).symm⟩

theorem eq_map_of_collect {results : List (Except Fault α)} {values : List α}
    (h : collect results = .ok values) : results = values.map .ok := by
  induction results generalizing values with
  | nil =>
    cases h
    rfl
  | cons first rest ih =>
    cases first with
    | error fault => cases h
    | ok a =>
      cases hrest : collect rest with
      | error fault =>
        rw [collect, hrest] at h
        cases h
      | ok others =>
        rw [collect, hrest] at h
        cases h
        rw [ih hrest]
        rfl

theorem collect_append (front rest : List (Except Fault α)) :
    collect (front ++ rest) = do return (← collect front) ++ (← collect rest) := by
  induction front with
  | nil =>
    rw [List.nil_append, collect]
    cases collect rest <;> rfl
  | cons first front ih =>
    cases first with
    | error fault => rfl
    | ok a =>
      rw [List.cons_append, collect, ih, collect]
      cases collect front <;> cases collect rest <;> rfl

theorem exists_collect {f : α → Except Fault β} {xs : List α} (h : ∀ x ∈ xs, ∃ b, f x = .ok b) :
    ∃ values, collect (xs.map f) = .ok values := by
  induction xs with
  | nil => exact ⟨[], rfl⟩
  | cons x rest ih =>
    obtain ⟨⟨b, hb⟩, hrest⟩ := List.forall_mem_cons.mp h
    obtain ⟨values, hvalues⟩ := ih hrest
    refine ⟨b :: values, ?_⟩
    rw [List.map_cons, hb, collect, hvalues]
    rfl

theorem exists_of_collect {f : α → Except Fault β} {xs : List α} {values : List β}
    (h : collect (xs.map f) = .ok values) : ∀ x ∈ xs, ∃ b ∈ values, f x = .ok b := by
  intro x hmem
  have hx : f x ∈ values.map .ok := eq_map_of_collect h ▸ List.mem_map_of_mem hmem
  obtain ⟨b, hb, hok⟩ := List.mem_map.mp hx
  exact ⟨b, hb, hok.symm⟩

theorem exists_of_mem_collect {f : α → Except Fault β} {xs : List α} {values : List β}
    (h : collect (xs.map f) = .ok values) : ∀ b ∈ values, ∃ x ∈ xs, f x = .ok b := by
  intro b hmem
  have hb : .ok b ∈ xs.map f := eq_map_of_collect h ▸ List.mem_map_of_mem hmem
  exact List.mem_map.mp hb

theorem forall₂_of_collect {f : α → Except Fault β} {r : α → β → Prop} {xs : List α}
    {values : List β} (hr : ∀ x ∈ xs, ∀ b, f x = .ok b → r x b)
    (h : collect (xs.map f) = .ok values) : List.Forall₂ r xs values := by
  replace h := eq_map_of_collect h
  induction xs generalizing values with
  | nil =>
    rw [List.map_eq_nil_iff.mp h.symm]
    exact .nil
  | cons x rest ih =>
    obtain ⟨b, others, rfl, hb, hothers⟩ := List.map_eq_cons_iff.mp h.symm
    obtain ⟨hx, hrest⟩ := List.forall_mem_cons.mp hr
    exact .cons (hx b hb.symm) (ih hrest hothers.symm)

/-! ## The fault of a result -/

/-- The fault of a result that is no value. -/
def of? : Except Fault α → Option Fault
  | .ok _ => none
  | .error fault => some fault

@[simp] theorem of?_ok (a : α) : of? (.ok a) = none := rfl

@[simp] theorem of?_error (fault : Fault) : of? (.error fault : Except Fault α) = some fault := rfl

@[simp] theorem of?_map (f : α → β) (result : Except Fault α) :
    of? (result.map f) = of? result := by
  cases result <;> rfl

theorem of?_eq_some {result : Except Fault α} {fault : Fault} :
    of? result = some fault ↔ result = .error fault := by
  cases result <;> simp

/-- Of two results in a row the first fault counts. -/
theorem of?_bind (first : Except Fault α) (second : Except Fault β) {γ : Type} (f : α → β → γ) :
    of? (do return f (← first) (← second)) = (of? first).or (of? second) := by
  cases first with
  | error fault => rfl
  | ok a => cases second <;> rfl

theorem of?_collect (results : List (Except Fault α)) :
    of? (collect results) = results.findSome? of? := by
  induction results with
  | nil => rfl
  | cons first rest ih =>
    cases first with
    | error fault => rfl
    | ok a => rw [collect, of?_map, ih, List.findSome?_cons_of_isNone rfl]

/-- Where every result has the first fault among some things, the results together have the first
among all of these. -/
theorem of?_collect_flatMap {γ : Type} {f : α → Except Fault β} {inside : α → List γ}
    {fault? : γ → Option Fault} {xs : List α}
    (h : ∀ x ∈ xs, of? (f x) = (inside x).findSome? fault?) :
    of? (collect (xs.map f)) = (xs.flatMap inside).findSome? fault? := by
  rw [of?_collect, List.findSome?_map]
  induction xs with
  | nil => rfl
  | cons x rest ih =>
    obtain ⟨hx, hrest⟩ := List.forall_mem_cons.mp h
    rw [List.flatMap_cons, List.findSome?_append, ← hx, ← ih hrest, List.findSome?_cons,
      Function.comp_apply]
    cases of? (f x) <;> rfl

end SolidScript.Fault
