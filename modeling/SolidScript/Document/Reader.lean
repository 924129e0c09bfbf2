/-!
# Readers

A reader takes something off the front of a text and gives the rest of the text, or refuses.
`repeated` takes as many as there are. The readers here are for the white space, comments, line
ends and strings of settings documents.
-/

namespace SolidScript.Document

/-- A reader of something at the front of a text. -/
abbrev Reader (α : Type) := List Char → Option (α × List Char)

/-- As many as there are, one after the other; each must take something. -/
def repeated {α : Type} (reader : Reader α) (text : List Char) : List α × List Char :=
  match reader text with
  | none => ([], text)
  | some (first, rest) =>
    if rest.length < text.length then
      let (others, final) := repeated reader rest
      (first :: others, final)
    else ([], text)
termination_by text.length

/-- A given text at the front. -/
def word : List Char → List Char → Option (List Char)
  | [], text => some text
  | _, [] => none
  | c :: expected, d :: rest => if c = d then word expected rest else none

/-! ## White space and line ends -/

def isSpace (c : Char) : Bool := c == ' ' || c == '\t'

def spaces (text : List Char) : List Char := text.dropWhile isSpace

/-- A character that may stand in a comment: no control but the tab. -/
def isShown (c : Char) : Bool := c == '\t' || (0x20 ≤ c.toNat && c.toNat != 0x7f)

def newline? : List Char → Option (List Char)
  | '\n' :: rest => some rest
  | '\r' :: '\n' :: rest => some rest
  | _ => none

def comment : List Char → List Char
  | '#' :: rest => rest.dropWhile isShown
  | text => text

/-- The end of a line or of the text, after spaces and a comment. -/
def lineEnd? (text : List Char) : Option (List Char) :=
  match comment (spaces text) with
  | [] => some []
  | rest => newline? rest

/-- A space, a tab or the end of a line. -/
def blankPiece : Reader Unit
  | [] => none
  | c :: rest =>
    if isSpace c then some ((), rest) else (newline? (c :: rest)).map fun after => ((), after)

/-- Spaces and line ends skipped. A carriage return counts only in the end of a line. -/
def blanks (text : List Char) : List Char := (repeated blankPiece text).2

/-- One piece of what may stand between the items of an array. -/
def gapPiece : Reader Unit
  | '#' :: rest => some ((), rest.dropWhile isShown)
  | text => blankPiece text

def gap (text : List Char) : List Char := (repeated gapPiece text).2

/-! ## Strings -/

def hexDigit? (c : Char) : Option Nat :=
  if c.isDigit then some (c.toNat - '0'.toNat)
  else if 'a' ≤ c ∧ c ≤ 'f' then some (c.toNat - 'a'.toNat + 10)
  else if 'A' ≤ c ∧ c ≤ 'F' then some (c.toNat - 'A'.toNat + 10)
  else none

/-- A character by its code point in a fixed number of hexadecimal digits. -/
def codePoint? (digits : Nat) (text : List Char) : Option (Char × List Char) := do
  let values ← (text.take digits).mapM hexDigit?
  let code := values.foldl (fun value digit => 16 * value + digit) 0
  if values.length = digits ∧ code.isValidChar then some (Char.ofNat code, text.drop digits)
  else none

def escaped : Reader Char
  | 'b' :: rest => some ('\x08', rest)
  | 't' :: rest => some ('\t', rest)
  | 'n' :: rest => some ('\n', rest)
  | 'f' :: rest => some ('\x0c', rest)
  | 'r' :: rest => some ('\r', rest)
  | '"' :: rest => some ('"', rest)
  | '\\' :: rest => some ('\\', rest)
  | 'u' :: rest => codePoint? 4 rest
  | 'U' :: rest => codePoint? 8 rest
  | _ => none

/-- A character of a string in quotes on one line. -/
def quotedChar : Reader Char
  | '\\' :: rest => escaped rest
  | c :: rest => if c ≠ '"' ∧ isShown c then some (c, rest) else none
  | [] => none

/-- A character of a string in apostrophes on one line. -/
def literalChar : Reader Char
  | c :: rest => if c ≠ '\'' ∧ isShown c then some (c, rest) else none
  | [] => none

/-- A string on one line, after its first mark. -/
def lineString (mark : Char) (char : Reader Char) : Reader (List Char) := fun text =>
  match repeated char text with
  | (chars, c :: rest) => if c = mark then some (chars, rest) else none
  | (_, []) => none

/-- A piece of a string over several lines: an end of a line, one or two marks, or a character.
Where backslashes count, one at the end of a line takes the spaces and line ends after it away. -/
def blockPiece (mark : Char) (escapes : Bool) : Reader Unit := fun text =>
  match text with
  | [] => none
  | c :: rest =>
    if c = mark then
      let run := text.takeWhile (· == mark)
      if run.length < 3 then some ((), text.dropWhile (· == mark)) else none
    else if escapes ∧ c = '\\' then
      match newline? (spaces rest) with
      | some after => some ((), blanks after)
      | none => (escaped rest).map fun (_, after) => ((), after)
    else
      match newline? text with
      | some after => some ((), after)
      | none => if isShown c then some ((), rest) else none

/-- A string over several lines, after its three first marks. It ends with three marks, before
which there may be two more. -/
def blockString (mark : Char) (escapes : Bool) (text : List Char) : Option (List Char) :=
  let rest := (repeated (blockPiece mark escapes) text).2
  let run := rest.takeWhile (· == mark)
  if run.length < 3 then none else some (rest.drop (min run.length 5))

def string? (text : List Char) : Option (List Char) :=
  match text with
  | '"' :: '"' :: '"' :: rest => blockString '"' true rest
  | '\'' :: '\'' :: '\'' :: rest => blockString '\'' false rest
  | '"' :: rest => (lineString '"' quotedChar rest).map (·.2)
  | '\'' :: rest => (lineString '\'' literalChar rest).map (·.2)
  | _ => none

end SolidScript.Document
