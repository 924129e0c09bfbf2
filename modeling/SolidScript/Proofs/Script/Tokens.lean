import SolidScript.Proofs.Script.Delimited
import SolidScript.Script.Arguments

/-!
# Tokens

Identifiers, truth values and the literals of finite numbers are tokens: texts of letters, digits
and a few signs, none of which ends a value.
-/

namespace SolidScript.Script

open Text Number

/-- A text of digits or of other characters of tokens. -/
def AllToken (text : List Char) : Prop := ∀ c ∈ text, isTokenChar c

namespace AllToken

variable {front rest : List Char}

theorem nil : AllToken [] := fun _ h => absurd h List.not_mem_nil

theorem cons {c : Char} (hc : isTokenChar c) (h : AllToken rest) : AllToken (c :: rest) := by
  intro other hmem
  rcases List.mem_cons.mp hmem with rfl | hmem
  · exact hc
  · exact h other hmem

theorem append (h : AllToken front) (h' : AllToken rest) : AllToken (front ++ rest) := by
  intro c hmem
  exact (List.mem_append.mp hmem).elim (h c) (h' c)

theorem subset (h : AllToken rest) (hsub : front ⊆ rest) : AllToken front :=
  fun c hmem => h c (hsub hmem)

theorem replicate {c : Char} (hc : isTokenChar c) (n : Nat) : AllToken (List.replicate n c) := by
  intro other hmem
  rw [List.eq_of_mem_replicate hmem]
  exact hc

theorem toDigits (n : Nat) : AllToken (Nat.toDigits 10 n) := by
  intro c hmem
  have hdigit : c.isDigit := Nat.isDigit_of_mem_toDigits (by decide) (by decide) hmem
  simp [isTokenChar, isWordRest, Char.isAlphanum, hdigit]

theorem sign (p : Prop) [Decidable p] : AllToken (if p then ['-'] else []) := by
  split
  · exact cons (by decide) nil
  · exact nil

theorem isToken_append_left (h : AllToken front) (h' : IsToken rest) : IsToken (front ++ rest) :=
  ⟨fun hnil => h'.1 (List.append_eq_nil_iff.mp hnil).2, h.append h'.2⟩

theorem isToken_append_right (h : IsToken front) (h' : AllToken rest) : IsToken (front ++ rest) :=
  ⟨fun hnil => h.1 (List.append_eq_nil_iff.mp hnil).1, AllToken.append h.2 h'⟩

end AllToken

theorem isToken_of_all {text : List Char} (h : (!text.isEmpty && text.all isTokenChar) = true) :
    IsToken text := by
  obtain ⟨hne, hall⟩ := (Bool.and_eq_true _ _).mp h
  exact ⟨by simpa using hne, List.all_eq_true.mp hall⟩

theorem isToken_toDigits (n : Nat) : IsToken (Nat.toDigits 10 n) :=
  ⟨Nat.toDigits_ne_nil, AllToken.toDigits n⟩

theorem isToken_wholeLiteral (n : Int) : IsToken (wholeLiteral n).toList := by
  rw [wholeLiteral, String.toList_ofList]
  exact (AllToken.sign _).isToken_append_left (isToken_toDigits _)

theorem allToken_dropLastZeros {digits : List Char} (h : AllToken digits) :
    AllToken (dropLastZeros digits) := by
  refine h.subset fun c hmem => ?_
  have hdrop := List.mem_reverse.mp hmem
  exact List.mem_reverse.mp ((List.dropWhile_sublist _).subset hdrop)

theorem isToken_millionthsLiteral (negative : Bool) (n : Nat) :
    IsToken (millionthsLiteral negative n) := by
  unfold millionthsLiteral
  refine AllToken.isToken_append_right ?_ ?_
  · exact (AllToken.sign _).isToken_append_left (isToken_toDigits _)
  · have hsix : AllToken (sixDigits (n % million)) :=
      (AllToken.replicate (by decide) _).append (.toDigits _)
    split
    · exact .nil
    · exact .cons (by decide) (allToken_dropLastZeros hsix)

theorem isToken_literal {x : Float} (h : nonFinite? x = none) : IsToken (literal x).toList := by
  unfold nonFinite? at h
  unfold literal
  cases hx : decode x with
  | finite negative m q =>
    rw [String.toList_ofList]
    exact isToken_millionthsLiteral _ _
  | infinite negative =>
    rw [hx] at h
    cases h
  | undefined =>
    rw [hx] at h
    cases h

theorem isTokenChar_of_isWordRest {c : Char} (h : isWordRest c) : isTokenChar c := by
  simp [isTokenChar, h]

theorem isToken_of_isPlainWord {text : List Char} (h : isPlainWord text) : IsToken text := by
  cases text with
  | nil => cases h
  | cons c rest =>
    obtain ⟨hc, hrest⟩ := (Bool.and_eq_true _ _).mp h
    have hword : isWordRest c := by
      rcases (Bool.or_eq_true _ _).mp hc with hc | hc
      · simp [isWordRest, Char.isAlphanum, hc]
      · simp [isWordRest, hc]
    refine ⟨List.cons_ne_nil c rest, AllToken.cons (isTokenChar_of_isWordRest hword) ?_⟩
    exact fun other hmem => isTokenChar_of_isWordRest (List.all_eq_true.mp hrest other hmem)

theorem isToken_cons {c : Char} (hc : isTokenChar c) {text : List Char} (h : IsToken text) :
    IsToken (c :: text) := ⟨List.cons_ne_nil c text, AllToken.cons hc h.2⟩

theorem isToken_of_isIdentifier {text : String} (h : isIdentifier text) : IsToken text.toList := by
  unfold isIdentifier at h
  split at h
  · rename_i body hbody
    rw [hbody]
    exact isToken_cons (by decide) (isToken_of_isPlainWord h)
  · exact isToken_of_isPlainWord h

theorem isToken_keyText {key : String} (h : isIdentifier key) : IsToken (keyText key).toList := by
  unfold keyText
  split
  · rw [String.toList_append]
    exact isToken_cons (by decide) (isToken_of_isIdentifier h)
  · exact isToken_of_isIdentifier h

end SolidScript.Script
