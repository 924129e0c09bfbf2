import SolidScript.Text.Quoted
import SolidScript.Text.Word

/-!
# Texts that end themselves

A code can be read back when the text of a thing, with more text after it, tells the thing and
where its text ends (`Decodes`). Tokens end before the first character that no token has; quoted
strings end themselves; things in a row with commas between them end with a closing character, and
things in a row end before one that none of them begins with.
-/

namespace SolidScript.Script

open Text

variable {α : Type}

/-- A character of a name or of a number. -/
def isTokenChar (c : Char) : Bool := isWordRest c || c == '$' || c == '-' || c == '.'

/-- The text of a name, a truth value or a number. -/
def IsToken (text : List Char) : Prop := text ≠ [] ∧ ∀ c ∈ text, isTokenChar c

def Begins (first : Char → Prop) (text : List Char) : Prop := ∃ c rest, text = c :: rest ∧ first c

/-- What stands after a value: a comma, or what closes a list or a call. -/
def IsDelimiter (c : Char) : Prop := c ∈ [',', ')', ']']

instance : DecidablePred IsDelimiter := fun c => inferInstanceAs (Decidable (c ∈ [',', ')', ']']))

/-- The text of `x` tells it from all other things with a text, and ends where more text of some
form begins. -/
def Decodes (chars : α → List Char) (legible : α → Prop) (more : List Char → Prop) (x : α) :
    Prop :=
  ∀ y, legible y → ∀ r s, more r → more s → chars x ++ r = chars y ++ s → x = y ∧ r = s

theorem Decodes.cons {chars : α → List Char} {tail : List α → List Char} {legible : α → Prop}
    {more more' : List Char → Prop} {x : α} {rest : List α} (hx : Decodes chars legible more x)
    (hrest : Decodes tail (∀ y ∈ ·, legible y) more' rest)
    (hmore : ∀ ys r, more' r → more (tail ys ++ r)) {y : α} {rest' : List α}
    (hys : ∀ z ∈ y :: rest', legible z) {r s : List Char} (hr : more' r) (hs : more' s)
    (h : chars x ++ (tail rest ++ r) = chars y ++ (tail rest' ++ s)) :
    x :: rest = y :: rest' ∧ r = s := by
  obtain ⟨hy, hrest'⟩ := List.forall_mem_cons.mp hys
  obtain ⟨rfl, htail⟩ := hx y hy _ _ (hmore rest r hr) (hmore rest' s hs) h
  obtain ⟨rfl, rfl⟩ := hrest rest' hrest' r s hr hs htail
  exact ⟨rfl, rfl⟩

theorem Begins.append {first : Char → Prop} {text : List Char} (h : Begins first text)
    (more : List Char) : Begins first (text ++ more) := by
  obtain ⟨c, rest, rfl, hc⟩ := h
  exact ⟨c, rest ++ more, rfl, hc⟩

theorem Begins.mono {first first' : Char → Prop} {text : List Char} (h : Begins first text)
    (himp : ∀ c, first c → first' c) : Begins first' text := by
  obtain ⟨c, rest, heq, hc⟩ := h
  exact ⟨c, rest, heq, himp c hc⟩

theorem Begins.elim {first second : Char → Prop} {text : List Char} (h : Begins first text)
    (h' : Begins second text) (hne : ∀ c, first c → ¬second c) : False := by
  obtain ⟨c, rest, rfl, hc⟩ := h
  obtain ⟨c', rest', heq, hc'⟩ := h'
  obtain ⟨rfl, -⟩ := List.cons.inj heq
  exact hne c hc hc'

theorem IsToken.begins {text : List Char} (h : IsToken text) :
    Begins (fun c => isTokenChar c) text := by
  cases text with
  | nil => exact absurd rfl h.1
  | cons c rest => exact ⟨c, rest, rfl, h.2 c List.mem_cons_self⟩

theorem not_isTokenChar_of_isDelimiter {c : Char} (h : IsDelimiter c) : ¬isTokenChar c := by
  simp only [IsDelimiter, List.mem_cons, List.not_mem_nil, or_false] at h
  rcases h with rfl | rfl | rfl <;> decide

/-- A token ends before the first character that no token has. -/
theorem takeWhile_token {token more : List Char} (h : ∀ c ∈ token, isTokenChar c)
    (hmore : Begins (fun c => ¬isTokenChar c) more) :
    (token ++ more).takeWhile isTokenChar = token := by
  obtain ⟨c, rest, rfl, hc⟩ := hmore
  rw [List.takeWhile_append_of_pos h, List.takeWhile_cons_of_neg hc, List.append_nil]

theorem token_append_inj {u v r s : List Char} (hu : IsToken u) (hv : IsToken v)
    (hr : Begins (fun c => ¬isTokenChar c) r) (hs : Begins (fun c => ¬isTokenChar c) s)
    (h : u ++ r = v ++ s) : u = v ∧ r = s := by
  have huv : u = v := by rw [← takeWhile_token hu.2 hr, h, takeWhile_token hv.2 hs]
  exact ⟨huv, List.append_cancel_left (huv ▸ h)⟩

theorem quoted_append_inj {u v r s : List Char}
    (h : Quoted.encode u ++ '"' :: r = Quoted.encode v ++ '"' :: s) : u = v ∧ r = s := by
  have hread := congrArg Quoted.decode h
  rw [Quoted.decode_encode, Quoted.decode_encode, Option.some_inj] at hread
  exact Prod.mk.inj hread

/-! ## Rows with commas -/

section Rows

variable (chars : α → List Char) (close : Char)

/-- The rest of a row after one of its things. -/
def following : List α → List Char
  | [] => [close]
  | x :: rest => ',' :: (chars x ++ following rest)

/-- Things in a row with commas between them, and what closes the row. -/
def row : List α → List Char
  | [] => [close]
  | x :: rest => chars x ++ following chars close rest

theorem row_eq (xs : List α) :
    row chars close xs = [','].intercalate (xs.map chars) ++ [close] := by
  cases xs with
  | nil => rfl
  | cons x rest =>
    rw [row]
    induction rest generalizing x with
    | nil => simp [following]
    | cons y rest ih =>
      rw [following, ih y, List.map_cons, List.map_cons, List.map_cons,
        List.intercalate_cons_cons]
      simp

variable {chars close} {legible : α → Prop}

theorem begins_following (hclose : IsDelimiter close) (xs : List α) :
    Begins IsDelimiter (following chars close xs) := by
  cases xs with
  | nil => exact ⟨close, [], rfl, hclose⟩
  | cons x rest => exact ⟨',', _, rfl, List.mem_cons_self⟩

/-- The things of a row are legible, and each can be read back before a delimiter. -/
def Readable (chars : α → List Char) (legible : α → Prop) (xs : List α) : Prop :=
  ∀ x ∈ xs, legible x ∧ Decodes chars legible (Begins IsDelimiter) x

theorem decodes_following (hclose : IsDelimiter close) (hcomma : close ≠ ',') {xs : List α}
    (hxs : Readable chars legible xs) :
    Decodes (following chars close) (∀ y ∈ ·, legible y) (fun _ => True) xs := by
  induction xs with
  | nil =>
    intro ys _ r s _ _ h
    cases ys with
    | nil => exact ⟨rfl, (List.cons.inj h).2⟩
    | cons y rest => exact absurd (List.cons.inj h).1 hcomma
  | cons x rest ih =>
    intro ys hys r s _ _ h
    cases ys with
    | nil => exact absurd (List.cons.inj h).1.symm hcomma
    | cons y rest' =>
      rw [following, following, List.cons_append, List.cons_append, List.append_assoc,
        List.append_assoc] at h
      obtain ⟨⟨-, hx⟩, hrest⟩ := List.forall_mem_cons.mp hxs
      refine hx.cons (ih hrest) (fun zs more _ => ?_) hys trivial trivial (List.cons.inj h).2
      exact (begins_following hclose zs).append more

/-- Rows end themselves when nothing in them begins with a delimiter. -/
theorem decodes_row (hclose : IsDelimiter close) (hcomma : close ≠ ',')
    (hfirst : ∀ x, legible x → Begins (fun c => ¬IsDelimiter c) (chars x)) {xs : List α}
    (hxs : Readable chars legible xs) :
    Decodes (row chars close) (∀ y ∈ ·, legible y) (fun _ => True) xs := by
  -- Only the empty row begins with the closing character.
  have hempty : ∀ x rest (r s : List Char), legible x →
      close :: r ≠ chars x ++ following chars close rest ++ s := by
    intro x rest r s hx h
    refine Begins.elim ⟨close, r, rfl, hclose⟩ ?_ fun c hc => not_not_intro hc
    rw [h]
    exact ((hfirst x hx).append _).append _
  intro ys hys r s _ _ h
  cases xs with
  | nil =>
    cases ys with
    | nil => exact ⟨rfl, (List.cons.inj h).2⟩
    | cons y rest => exact absurd h (hempty y rest r s (hys y List.mem_cons_self))
  | cons x rest =>
    obtain ⟨⟨hlegible, hx⟩, hrest⟩ := List.forall_mem_cons.mp hxs
    cases ys with
    | nil => exact absurd h.symm (hempty x rest s r hlegible)
    | cons y rest' =>
      rw [row, row, List.append_assoc, List.append_assoc] at h
      have hothers := decodes_following hclose hcomma hrest
      refine hx.cons hothers (fun zs more _ => ?_) hys trivial trivial h
      exact (begins_following hclose zs).append more

/-- Things in a row that end themselves are told by the whole up to a closing character that none
of them begins with. -/
theorem decodes_flatMap (hfirst : ∀ x, legible x → Begins (· ≠ close) (chars x)) {xs : List α}
    (hxs : ∀ x ∈ xs, legible x ∧ Decodes chars legible (fun _ => True) x) :
    Decodes (List.flatMap chars) (∀ y ∈ ·, legible y) (Begins (· = close)) xs := by
  -- The closing character is read as such, and not as the first of a further thing.
  have hempty : ∀ x (r s : List Char), legible x → Begins (· = close) r → r ≠ chars x ++ s := by
    intro x r s hx hr h
    refine hr.elim ?_ fun c hc => not_not_intro hc
    rw [h]
    exact (hfirst x hx).append s
  induction xs with
  | nil =>
    intro ys hys r s hr _ h
    cases ys with
    | nil => exact ⟨rfl, h⟩
    | cons y rest =>
      rw [List.flatMap_cons, List.append_assoc] at h
      exact absurd h (hempty y r _ (hys y List.mem_cons_self) hr)
  | cons x rest ih =>
    intro ys hys r s hr hs h
    obtain ⟨⟨hlegible, hx⟩, hrest⟩ := List.forall_mem_cons.mp hxs
    rw [List.flatMap_cons, List.append_assoc] at h
    cases ys with
    | nil => exact absurd h.symm (hempty x s _ hlegible hs)
    | cons y rest' =>
      rw [List.flatMap_cons, List.append_assoc] at h
      exact hx.cons (ih hrest) (fun _ _ _ => trivial) hys hr hs h

end Rows

/-! ## Bodies -/

section Bodies

variable (chars : α → List Char)

/-- What stands for the things below another one: a semicolon for none, the text of a single one,
and those of several in braces. -/
def bodyChars : List α → List Char
  | [] => [';']
  | [only] => chars only
  | first :: second :: rest => '{' :: ((first :: second :: rest).flatMap chars ++ ['}'])

/-- What no statement begins with. -/
def IsLayout (c : Char) : Prop := c ∈ [';', '{', '}']

instance : DecidablePred IsLayout := fun c => inferInstanceAs (Decidable (c ∈ [';', '{', '}']))

theorem not_isTokenChar_of_isLayout {c : Char} (h : IsLayout c) : ¬isTokenChar c := by
  simp only [IsLayout, List.mem_cons, List.not_mem_nil, or_false] at h
  rcases h with rfl | rfl | rfl <;> decide

variable {chars} {legible : α → Prop}

/-- A body tells how many things stand in it, and ends itself. -/
theorem decodes_bodyChars (hfirst : ∀ x, legible x → Begins (fun c => ¬IsLayout c) (chars x))
    {xs : List α} (hxs : ∀ x ∈ xs, legible x ∧ Decodes chars legible (fun _ => True) x) :
    Decodes (bodyChars chars) (∀ y ∈ ·, legible y) (fun _ => True) xs := by
  have hsign : ∀ x c (r s : List Char), legible x → IsLayout c → c :: r ≠ chars x ++ s := by
    intro x c r s hx hc h
    refine Begins.elim ⟨c, r, rfl, hc⟩ ?_ fun c hc => not_not_intro hc
    rw [h]
    exact (hfirst x hx).append s
  have hclosing : ∀ x, legible x → Begins (· ≠ '}') (chars x) := fun x hx =>
    (hfirst x hx).mono fun c hc heq => hc (heq ▸ by decide)
  intro ys hys r s _ _ h
  match xs, ys with
  | [], [] => exact ⟨rfl, (List.cons.inj h).2⟩
  | [], [y] => exact absurd h (hsign y ';' r s (hys y List.mem_cons_self) (by decide))
  | [], _ :: _ :: _ => exact absurd (List.cons.inj h).1 (by decide)
  | [x], [] =>
    exact absurd h.symm (hsign x ';' s r (hxs x List.mem_cons_self).1 (by decide))
  | [x], [y] =>
    obtain ⟨rfl, rfl⟩ := (hxs x List.mem_cons_self).2 y (hys y List.mem_cons_self) r s trivial
      trivial h
    exact ⟨rfl, rfl⟩
  | [x], _ :: _ :: _ =>
    exact absurd h.symm (hsign x '{' _ r (hxs x List.mem_cons_self).1 (by decide))
  | _ :: _ :: _, [] => exact absurd (List.cons.inj h).1 (by decide)
  | _ :: _ :: _, [y] => exact absurd h (hsign y '{' _ s (hys y List.mem_cons_self) (by decide))
  | x₁ :: x₂ :: xs, y₁ :: y₂ :: ys =>
    have htail := (List.cons.inj h).2
    rw [List.append_eq, List.append_eq, List.append_assoc, List.append_assoc] at htail
    obtain ⟨hall, hrest⟩ := decodes_flatMap hclosing hxs (y₁ :: y₂ :: ys) hys ('}' :: r) ('}' :: s)
      ⟨'}', r, rfl, rfl⟩ ⟨'}', s, rfl, rfl⟩ htail
    exact ⟨hall, (List.cons.inj hrest).2⟩

end Bodies

end SolidScript.Script
