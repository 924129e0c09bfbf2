/-!
# Quoted strings of the script language

A quote, a backslash and a line feed inside a string are written as two characters; everything
else stands for itself. `decode` reads the text between the quotes back.
-/

namespace SolidScript.Text.Quoted

def encode : List Char → List Char
  | [] => []
  | c :: rest =>
    if c = '"' then '\\' :: '"' :: encode rest
    else if c = '\\' then '\\' :: '\\' :: encode rest
    else if c = '\n' then '\\' :: 'n' :: encode rest
    else c :: encode rest

/-- Read a quoted string after its first quote: its characters, and the text after its last
quote. -/
def decode : List Char → Option (List Char × List Char)
  | [] => none
  | '"' :: rest => some ([], rest)
  | '\\' :: 'n' :: rest => (decode rest).map fun (s, t) => ('\n' :: s, t)
  | '\\' :: c :: rest => (decode rest).map fun (s, t) => (c :: s, t)
  | c :: rest => (decode rest).map fun (s, t) => (c :: s, t)

/-- What was written is read back, whatever follows the last quote. -/
theorem decode_encode (s rest : List Char) : decode (encode s ++ '"' :: rest) = some (s, rest) := by
  induction s with
  | nil => rfl
  | cons c s ih =>
    unfold encode
    split
    · subst c; simp [decode, ih]
    · split
      · subst c; simp [decode, ih]
      · split
        · subst c; simp [decode, ih]
        · rename_i h1 h2 h3
          simp [decode, ih, h2]

def text (s : String) : String := "\"" ++ String.ofList (encode s.toList) ++ "\""

end SolidScript.Text.Quoted
