import SolidScript.Proofs.Number.Decoded

/-!
# Decimal literals

A decimal literal has digits after an optional sign, and after them a point with more digits or
nothing. Whole numbers are written as decimal literals, and of doubles exactly the finite ones
(`isDecimal_literal_iff`).
-/

namespace SolidScript.Number

def IsDigits (text : List Char) : Prop := text ≠ [] ∧ ∀ c ∈ text, c.isDigit

/-- Digits after an optional sign, and a point with digits or nothing. -/
inductive IsDecimal : List Char → Prop where
  | whole {sign digits : List Char} : sign ∈ [[], ['-']] → IsDigits digits →
    IsDecimal (sign ++ digits)
  | point {sign digits fraction : List Char} : sign ∈ [[], ['-']] → IsDigits digits →
    IsDigits fraction → IsDecimal (sign ++ digits ++ '.' :: fraction)

theorem IsDecimal.of_mem {text : List Char} (h : IsDecimal text) {c : Char} (hc : c ∈ text) :
    c = '-' ∨ c = '.' ∨ c.isDigit := by
  have hsign : ∀ {sign : List Char}, sign ∈ [[], ['-']] → c ∈ sign → c = '-' := by
    intro sign hsign hc
    rcases List.mem_cons.mp hsign with rfl | hsign
    · exact absurd hc List.not_mem_nil
    · rw [List.mem_singleton.mp hsign] at hc
      exact List.mem_singleton.mp hc
  cases h with
  | whole hs hdigits =>
    exact (List.mem_append.mp hc).imp (hsign hs) fun hc => .inr (hdigits.2 c hc)
  | point hs hdigits hfraction =>
    rcases List.mem_append.mp hc with hc | hc
    · exact (List.mem_append.mp hc).imp (hsign hs) fun hc => .inr (hdigits.2 c hc)
    · exact .inr ((List.mem_cons.mp hc).imp_right (hfraction.2 c))

theorem isDigits_toDigits (n : Nat) : IsDigits (Nat.toDigits 10 n) :=
  ⟨Nat.toDigits_ne_nil, fun _ hc => Nat.isDigit_of_mem_toDigits (by decide) (by decide) hc⟩

theorem sign_mem (p : Prop) [Decidable p] : (if p then ['-'] else []) ∈ [[], ['-']] := by
  split
  · exact List.mem_cons_of_mem _ List.mem_cons_self
  · exact List.mem_cons_self

theorem isDecimal_wholeLiteral (n : Int) : IsDecimal (wholeLiteral n).toList := by
  rw [wholeLiteral, String.toList_ofList]
  exact .whole (sign_mem _) (isDigits_toDigits _)

theorem isDigit_of_mem_dropLastZeros {digits : List Char} {c : Char}
    (h : ∀ c ∈ digits, c.isDigit) (hc : c ∈ dropLastZeros digits) : c.isDigit := by
  have hdrop := List.mem_reverse.mp hc
  exact h c (List.mem_reverse.mp ((List.dropWhile_sublist _).subset hdrop))

theorem isDigit_of_mem_sixDigits {n : Nat} {c : Char} (hc : c ∈ sixDigits n) : c.isDigit := by
  rcases List.mem_append.mp hc with hc | hc
  · rw [List.eq_of_mem_replicate hc]
    rfl
  · exact (isDigits_toDigits n).2 c hc

theorem isDecimal_millionthsLiteral (negative : Bool) (n : Nat) :
    IsDecimal (millionthsLiteral negative n) := by
  unfold millionthsLiteral
  dsimp only
  by_cases hempty : (dropLastZeros (sixDigits (n % million))).isEmpty
  · rw [if_pos hempty, List.append_nil]
    exact .whole (sign_mem _) (isDigits_toDigits _)
  · rw [if_neg hempty]
    refine .point (sign_mem _) (isDigits_toDigits _) ⟨?_, fun c hc => ?_⟩
    · exact fun hnil => hempty (List.isEmpty_iff.mpr hnil)
    · exact isDigit_of_mem_dropLastZeros (fun c => isDigit_of_mem_sixDigits) hc

theorem not_isDecimal_text (number : NonFinite) : ¬IsDecimal number.text.toList := by
  intro h
  cases number with
  | undefined => exact absurd (h.of_mem (c := 'N') (by decide)) (by decide)
  | infinite negative =>
    cases negative <;> exact absurd (h.of_mem (c := 'i') (by decide)) (by decide)

theorem isDecimal_literal_iff {x : Float} : IsDecimal (literal x).toList ↔ x.isFinite := by
  rw [← nonFinite?_eq_none_iff]
  unfold literal nonFinite?
  cases decode x with
  | finite negative m q =>
    rw [String.toList_ofList]
    exact iff_of_true (isDecimal_millionthsLiteral _ _) rfl
  | infinite negative => exact iff_of_false (not_isDecimal_text _) nofun
  | undefined => exact iff_of_false (not_isDecimal_text _) nofun

end SolidScript.Number
