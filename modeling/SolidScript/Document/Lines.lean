import SolidScript.Document.Numeric

/-!
# Lines of a settings document

A line is blank, a header, or an assignment of a value to a dotted key. Values may be nested, and
keys dotted, 79 times at most.
-/

namespace SolidScript.Document

/-- How deep values and keys may be nested. -/
def nestingLimit : Nat := 79

/-- A character of a key without quotes. -/
def isBareKey (c : Char) : Bool := c.isAlphanum || c == '_' || c == '-'

def keyPart : Reader String
  | '"' :: rest => (lineString '"' quotedChar rest).map fun (cs, after) => (String.ofList cs, after)
  | '\'' :: rest =>
    (lineString '\'' literalChar rest).map fun (cs, after) => (String.ofList cs, after)
  | text =>
    let name := text.takeWhile isBareKey
    if name.isEmpty then none else some (String.ofList name, text.dropWhile isBareKey)

def spacedKeyPart : Reader String := fun text =>
  (keyPart (spaces text)).map fun (name, rest) => (name, spaces rest)

/-- A dotted key: the path before its last part, and the last part. -/
def key (text : List Char) : Option ((List String × String) × List Char) := do
  let (first, rest) ← spacedKeyPart text
  let (others, rest) := repeated (fun
    | '.' :: after => spacedKeyPart after
    | _ => none) rest
  let parts := first :: others
  if parts.length ≤ nestingLimit then some ((parts.dropLast, parts.getLastD first), rest) else none

def assignment (value : Reader Entry) (text : List Char) :
    Option ((List String × String × Entry) × List Char) := do
  let ((path, name), rest) ← key text
  let rest ← word ['='] rest
  let (entry, rest) ← value (spaces rest)
  return ((path, name, entry), rest)

/-- The items of a list after its opening mark: items with commas between them, up to the closing
mark. -/
def items {α : Type} (item : Reader α) (text : List Char) : List α × List Char :=
  match item text with
  | none => ([], text)
  | some (first, rest) =>
    let (others, rest) := repeated (fun
      | ',' :: after => item after
      | _ => none) rest
    (first :: others, rest)

/-- An array after its opening bracket; line ends may stand anywhere in it, and a comma after its
last item. -/
def array (value : Reader Entry) (text : List Char) : Option (Entry × List Char) := do
  let item : Reader Entry := fun text =>
    (value (gap text)).map fun (entry, rest) => (entry, gap rest)
  let (entries, rest) := items item text
  let rest := match rest with
    | ',' :: after => if entries.isEmpty then rest else after
    | _ => rest
  let rest ← word [']'] (gap rest)
  return (.other, rest)

/-- A table in braces on one line, after its opening brace. -/
def braced (value : Reader Entry) (text : List Char) : Option (Entry × List Char) := do
  let item : Reader (List String × String × Entry) := fun text =>
    (assignment value text).map fun (entry, rest) => (entry, spaces rest)
  let (entries, rest) := items item text
  let rest ← word ['\x7d'] (spaces rest)
  let _ ← entries.foldlM (fun table (path, name, entry) => table.assign path name entry)
    Table.empty
  return (.other, rest)

/-- A value with at most the given levels of arrays and tables in it. -/
def value : Nat → Reader Entry
  | depth, text =>
    match text with
    | [] => none
    | c :: rest =>
      if c = '"' ∨ c = '\'' then (string? text).map fun after => (.other, after)
      else if c = '[' then
        match depth with
        | 0 => none
        | inner + 1 => array (value inner) rest
      else if c = '\x7b' then
        match depth with
        | 0 => none
        | inner + 1 => braced (value inner) rest
      else if c = 't' then (word ['t', 'r', 'u', 'e'] text).map fun after => (.other, after)
      else if c = 'f' then
        (word ['f', 'a', 'l', 's', 'e'] text).map fun after => (.other, after)
      else numeric text

/-- A line: a statement, or none if it is blank. -/
def line : Reader (Option Statement) := fun text => do
  match spaces text with
  | '[' :: '[' :: rest =>
    let ((path, name), rest) ← key rest
    let rest ← lineEnd? (← word [']', ']'] rest)
    return (some (.element path name), rest)
  | '[' :: rest =>
    let ((path, name), rest) ← key rest
    let rest ← lineEnd? (← word [']'] rest)
    return (some (.table path name), rest)
  | start =>
    match lineEnd? start with
    | some rest => return (none, rest)
    | none =>
      let ((path, name, entry), rest) ← assignment (value nestingLimit) start
      return (some (.assign path name entry), ← lineEnd? rest)

/-- The statements of a document, which may begin with a byte order mark. -/
def statements (text : List Char) : Option (List Statement) :=
  let body := match text with
    | '\ufeff' :: rest => rest
    | _ => text
  match repeated line body with
  | (lines, []) => some (lines.filterMap id)
  | (_, _ :: _) => none

def read (text : String) : Option Table := statements text.toList >>= tableOf

end SolidScript.Document
