import SolidScript.Document.Lines
import SolidScript.Proofs.Number.Written

/-!
# Reading numbers of a settings document

A number that is written with a point, a whole number and the words for infinity are each read back
up to the end of their line (`Reads`). None of them can be taken for a date or a time, whose fields
end in other characters.
-/

namespace SolidScript.Document

open Number

/-! ## Digits -/

theorem repeated_of_none {α : Type} {reader : Reader α} {text : List Char}
    (h : reader text = none) : repeated reader text = ([], text) := by
  rw [repeated, h]

theorem repeated_of_some {α : Type} {reader : Reader α} {text rest : List Char} {first : α}
    (h : reader text = some (first, rest)) (hlt : rest.length < text.length) :
    repeated reader text = (first :: (repeated reader rest).1, (repeated reader rest).2) := by
  rw [repeated, h]
  exact if_pos hlt

/-- Where digits end: at a character that is no digit and no underscore. -/
def EndsDigits (c : Char) : Prop := c ≠ '_' ∧ ¬c.isDigit

theorem endsDigits_point : EndsDigits '.' := ⟨by decide, by decide⟩

theorem endsDigits_feed : EndsDigits '\n' := ⟨by decide, by decide⟩

theorem digit_of_isDigit {c : Char} (hc : c.isDigit) (rest : List Char) :
    digit Char.isDigit (c :: rest) = some (c, rest) := by
  unfold digit
  split
  · rename_i heq
    cases heq
    exact absurd hc (by decide)
  · rename_i heq
    cases heq
    exact if_pos hc
  · rename_i heq
    cases heq

theorem digit_of_endsDigits {c : Char} (hc : EndsDigits c) (rest : List Char) :
    digit Char.isDigit (c :: rest) = none := by
  unfold digit
  split
  · rename_i heq
    cases heq
    exact absurd rfl hc.1
  · rename_i heq
    cases heq
    exact if_neg hc.2
  · rfl

theorem repeated_digit {ds : List Char} (hds : ∀ c ∈ ds, c.isDigit) {stop : Char}
    (hstop : EndsDigits stop) (rest : List Char) :
    repeated (digit Char.isDigit) (ds ++ stop :: rest) = (ds, stop :: rest) := by
  induction ds with
  | nil => exact repeated_of_none (digit_of_endsDigits hstop rest)
  | cons c ds ih =>
    obtain ⟨hc, hrest⟩ := List.forall_mem_cons.mp hds
    rw [List.cons_append, repeated_of_some (digit_of_isDigit hc _) (Nat.lt_succ_self _), ih hrest]

theorem digits_append {ds : List Char} (hds : IsDigits ds) {stop : Char} (hstop : EndsDigits stop)
    (rest : List Char) : digits Char.isDigit (ds ++ stop :: rest) = some (ds, stop :: rest) := by
  obtain ⟨hne, hall⟩ := hds
  cases ds with
  | nil => exact absurd rfl hne
  | cons c ds =>
    obtain ⟨hc, hrest⟩ := List.forall_mem_cons.mp hall
    rw [List.cons_append, digits, if_pos hc, repeated_digit hrest hstop]

theorem wholeDigits_append {ds : List Char} (hds : IsDigits ds)
    (hleading : ds = ['0'] ∨ ds.head? ≠ some '0') {stop : Char} (hstop : EndsDigits stop)
    (rest : List Char) : wholeDigits (ds ++ stop :: rest) = some (ds, stop :: rest) := by
  rcases hleading with rfl | hhead
  · rfl
  · rw [← digits_append hds hstop rest]
    cases ds with
    | nil => exact absurd rfl hds.1
    | cons c ds =>
      unfold wholeDigits
      split
      · rename_i heq
        cases heq
        exact absurd rfl hhead
      · rfl

/-! ## Numbers -/

variable {whole fraction : List Char} {negative : Bool}

theorem numeral?_pointed (h : IsPointed whole fraction) (negative : Bool) (rest : List Char) :
    numeral? ((if negative then ['-'] else []) ++ (whole ++ '.' :: (fraction ++ '\n' :: rest))) =
      some (⟨negative, digitsValue (whole ++ fraction), -fraction.length⟩, '\n' :: rest) := by
  have hexponent : exponent? ('\n' :: rest) = none := rfl
  simp only [numeral?, sign_signed negative h.digits,
    wholeDigits_append h.digits h.leading endsDigits_point, digits_append h.places endsDigits_feed,
    hexponent, Option.bind_eq_bind, Option.bind_some, Option.getD_none, zero_sub]
  rfl

/-- A whole number is no numeral, as it has neither a point nor an exponent. -/
theorem numeral?_digits {ds : List Char} (hds : IsDigits ds)
    (hleading : ds = ['0'] ∨ ds.head? ≠ some '0') (rest : List Char) :
    numeral? (ds ++ '\n' :: rest) = none := by
  unfold numeral?
  rw [sign_of_isDigits hds]
  dsimp only
  rw [wholeDigits_append hds hleading endsDigits_feed]
  rfl

/-! ## No dates and no times -/

/-- A field takes digits only, so what comes after it is either another digit or what ends them. -/
theorem word_after_field {count least greatest : Nat} (hcount : 0 < count) {ds : List Char}
    (hds : ∀ c ∈ ds, c.isDigit) {stop mark : Char} (hstop : ¬stop.isDigit) (hmark : ¬mark.isDigit)
    (hne : ds = [] ∨ stop ≠ mark) {tail rest : List Char} {value : Nat}
    (h : field count least greatest (ds ++ stop :: tail) = some (value, rest)) :
    word [mark] rest = none := by
  unfold field at h
  dsimp only at h
  split at h
  · rename_i hfield
    obtain ⟨hlength, hall, -, -⟩ := hfield
    cases h
    have hle : count ≤ ds.length := by
      by_contra hlt
      refine hstop (List.all_eq_true.mp hall stop ?_)
      obtain ⟨k, hk⟩ : ∃ k, count = ds.length + (k + 1) := ⟨count - ds.length - 1, by omega⟩
      rw [hk, List.take_length_add_append, List.take_succ_cons]
      exact List.mem_append_right _ List.mem_cons_self
    rw [List.drop_append_of_le_length hle]
    cases hdrop : ds.drop count with
    | nil =>
      have hds : ds ≠ [] := fun hnil => by
        rw [hnil] at hle
        exact absurd hle (not_le.mpr hcount)
      exact if_neg (hne.resolve_left hds).symm
    | cons c cs =>
      have hc : c.isDigit := hds c (List.mem_of_mem_drop (hdrop ▸ List.mem_cons_self))
      exact if_neg fun heq : mark = c => hmark (heq ▸ hc)
  · cases h

/-- Digits are no date and no time if they end in neither of the marks in these. -/
theorem moment_eq_none {ds : List Char} (hds : ∀ c ∈ ds, c.isDigit) {stop : Char}
    (hstop : ¬stop.isDigit) (hne : ds = [] ∨ stop ≠ '-' ∧ stop ≠ ':') (tail : List Char) :
    moment (ds ++ stop :: tail) = none := by
  have hdate : date? (ds ++ stop :: tail) = none := by
    unfold date?
    cases hfield : field 4 0 9999 (ds ++ stop :: tail) with
    | none => rfl
    | some found =>
      have hword := word_after_field (by decide) hds hstop (by decide) (hne.imp_right And.left)
        hfield
      simp only [Option.bind_eq_bind, Option.bind_some, hword, Option.bind_none]
  have htime : time? (ds ++ stop :: tail) = none := by
    unfold time?
    cases hfield : field 2 0 23 (ds ++ stop :: tail) with
    | none => rfl
    | some found =>
      have hword := word_after_field (by decide) hds hstop (by decide) (hne.imp_right And.right)
        hfield
      simp only [Option.bind_eq_bind, Option.bind_some, hword, Option.bind_none]
  unfold moment
  rw [hdate]
  dsimp only
  rw [htime]
  rfl

/-! ## Values -/

/-- A text that is read as an entry, after spaces, up to the end of its line. -/
def Reads (text : List Char) (entry : Entry) : Prop :=
  ∀ depth rest, value depth (spaces (text ++ '\n' :: rest)) = some (entry, '\n' :: rest)

theorem spaces_cons {c : Char} (hblank : c ≠ ' ') (htab : c ≠ '\t') (rest : List Char) :
    spaces (c :: rest) = c :: rest := by
  refine List.dropWhile_cons_of_neg ?_
  simp only [isSpace, Bool.or_eq_true, beq_iff_eq, not_or]
  exact ⟨hblank, htab⟩

def BeginsNumber (c : Char) : Prop := c.isDigit ∨ c = '-' ∨ c = 'i'

theorem value_eq_numeric {c : Char} (hc : BeginsNumber c) (depth : Nat) (rest : List Char) :
    value depth (spaces (c :: rest)) = numeric (c :: rest) := by
  have hne : ∀ d ∈ [' ', '\t', '"', '\'', '[', '\x7b', 't', 'f'], c ≠ d := by
    rintro d hd rfl
    unfold BeginsNumber at hc
    revert hc
    fin_cases hd <;> decide
  simp only [List.forall_mem_cons] at hne
  obtain ⟨hblank, htab, hquote, happos, hbracket, hbrace, ht, hf, -⟩ := hne
  rw [spaces_cons hblank htab]
  unfold value
  dsimp only
  rw [if_neg (not_or.mpr ⟨hquote, happos⟩), if_neg hbracket, if_neg hbrace, if_neg ht, if_neg hf]

/-- What is neither a date nor a time is read as a decimal number, or else as a whole one. -/
theorem value_eq {text : List Char} (hhead : ∃ c rest, text = c :: rest ∧ BeginsNumber c)
    (hmoment : moment text = none) (depth : Nat) :
    value depth (spaces text) = (decimal text <|> integer text) := by
  obtain ⟨c, rest, rfl, hc⟩ := hhead
  rw [value_eq_numeric hc, numeric, hmoment]
  rfl

theorem exists_head_of_isDigits {ds : List Char} (hds : IsDigits ds) (rest : List Char) :
    ∃ c tail, ds ++ rest = c :: tail ∧ BeginsNumber c := by
  obtain ⟨hne, hall⟩ := hds
  cases ds with
  | nil => exact absurd rfl hne
  | cons c ds => exact ⟨c, ds ++ rest, rfl, .inl (hall c List.mem_cons_self)⟩

theorem reads_finite {x : Float} {m : Nat} {q : ℤ} (h : decode x = .finite negative m q) :
    Reads (Layout.settings.text x).toList (.decimal x) := by
  obtain ⟨whole, fraction, hpointed, htext, hvalue⟩ := exists_pointed h
  intro depth rest
  have hshape : (Layout.settings.text x).toList ++ '\n' :: rest =
      (if negative then ['-'] else []) ++ (whole ++ '.' :: (fraction ++ '\n' :: rest)) := by
    rw [htext, List.append_assoc, List.append_assoc, List.cons_append]
  have hdecimal : decimal ((Layout.settings.text x).toList ++ '\n' :: rest) =
      some (.decimal x, '\n' :: rest) := by
    unfold decimal
    rw [hshape, numeral?_pointed hpointed]
    dsimp only
    rw [hvalue]
    exact if_neg (not_beq_infinity_of_decode h)
  rw [hshape] at hdecimal ⊢
  have hhead : ∃ c tail, (if negative then ['-'] else []) ++
      (whole ++ '.' :: (fraction ++ '\n' :: rest)) = c :: tail ∧ BeginsNumber c := by
    cases negative with
    | true => exact ⟨'-', _, rfl, .inr (.inl rfl)⟩
    | false => exact exists_head_of_isDigits hpointed.digits _
  have hmoment : moment ((if negative then ['-'] else []) ++
      (whole ++ '.' :: (fraction ++ '\n' :: rest))) = none := by
    cases negative with
    | true => exact moment_eq_none (List.forall_mem_nil _) (by decide) (.inl rfl) _
    | false => exact moment_eq_none hpointed.digits.2 (by decide) (.inr (by decide)) _
  rw [value_eq hhead hmoment, hdecimal]
  rfl

theorem reads_infinite {x : Float} (h : decode x = .infinite negative) :
    Reads (Layout.settings.text x).toList (.decimal x) := by
  intro depth rest
  have htext : (Layout.settings.text x).toList = (NonFinite.infinite negative).text.toList := by
    unfold Layout.text
    rw [h]
  rw [htext, ← infinity_of_decode h]
  cases negative with
  | true =>
    show value depth (spaces ('-' :: 'i' :: 'n' :: 'f' :: '\n' :: rest)) = _
    rw [value_eq ⟨'-', _, rfl, .inr (.inl rfl)⟩
      (moment_eq_none (List.forall_mem_nil _) (by decide) (.inl rfl) _)]
    rfl
  | false =>
    show value depth (spaces ('i' :: 'n' :: 'f' :: '\n' :: rest)) = _
    rw [value_eq ⟨'i', _, rfl, .inr (.inr rfl)⟩
      (moment_eq_none (List.forall_mem_nil _) (by decide) (.inl rfl) _)]
    rfl

theorem decimal_digits {ds : List Char} (hds : IsDigits ds)
    (hleading : ds = ['0'] ∨ ds.head? ≠ some '0') (rest : List Char) :
    decimal (ds ++ '\n' :: rest) = none := by
  unfold decimal
  rw [numeral?_digits hds hleading, sign_of_isDigits hds]
  obtain ⟨hne, hall⟩ := hds
  cases ds with
  | nil => exact absurd rfl hne
  | cons c ds =>
    have hc := hall c List.mem_cons_self
    have hi : 'i' ≠ c := fun heq => absurd (heq ▸ hc) (by decide)
    have hn : 'n' ≠ c := fun heq => absurd (heq ▸ hc) (by decide)
    simp only [List.cons_append, word, if_neg hi, if_neg hn, Option.map_none]

theorem integer_digits {ds : List Char} (hds : IsDigits ds)
    (hleading : ds = ['0'] ∨ ds.head? ≠ some '0') (hlt : digitsValue ds < wholeBound)
    (rest : List Char) :
    integer (ds ++ '\n' :: rest) = some (.integer (digitsValue ds), '\n' :: rest) := by
  have hread := wholeDigits_append hds hleading endsDigits_feed rest
  have hsign := sign_of_isDigits hds ('\n' :: rest)
  rcases hleading with rfl | hhead
  · rfl
  obtain ⟨hne, hall⟩ := hds
  cases ds with
  | nil => exact absurd rfl hne
  | cons c ds =>
    rw [List.cons_append] at hread hsign ⊢
    -- A number in another base would begin with a zero.
    unfold integer
    split
    iterate 3
      · rename_i heq
        exact absurd (congrArg some (List.cons.inj heq).1) hhead
    · simp only [hsign, hread, Option.bind_eq_bind, Option.bind_some]
      exact if_pos hlt

theorem reads_natural {n : Nat} (h : n < wholeBound) :
    Reads (wholeLiteral n).toList (.integer n) := by
  intro depth rest
  have hdigits := isDigits_toDigits n
  have hleading : Nat.toDigits 10 n = ['0'] ∨ (Nat.toDigits 10 n).head? ≠ some '0' := by
    rcases Nat.eq_zero_or_pos n with rfl | hpos
    · exact .inl rfl
    · exact .inr (head?_toDigits hpos.ne')
  have htext : (wholeLiteral n).toList = Nat.toDigits 10 n := by
    rw [wholeLiteral, String.toList_ofList, if_neg (by omega), Int.natAbs_natCast, List.nil_append]
  have hmoment : moment (Nat.toDigits 10 n ++ '\n' :: rest) = none :=
    moment_eq_none hdigits.2 (by decide) (.inr (by decide)) _
  have hvalue : digitsValue (Nat.toDigits 10 n) < wholeBound := by rwa [digitsValue_toDigits]
  rw [htext, value_eq (exists_head_of_isDigits hdigits _) hmoment, decimal_digits hdigits hleading,
    integer_digits hdigits hleading hvalue, digitsValue_toDigits]
  rfl

end SolidScript.Document
