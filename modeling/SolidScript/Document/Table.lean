/-!
# Tables of a settings document

A settings document is TOML 1.0: assignments to dotted keys under headers of tables and of
elements of arrays of tables. Only numbers matter to this library, but a document is refused as a
whole when a key is set twice or a table is opened in two ways, so the tables keep every key.
-/

namespace SolidScript.Document

/-- A value: a whole number, a number, or something that is no number. -/
inductive Entry where
  | integer (n : Int)
  | decimal (x : Float)
  | other

/-- How a table came to be: by a header of its own, by a longer header, or by a dotted key. -/
inductive Origin where
  | header
  | path
  | dotted
  deriving DecidableEq

mutual

/-- A table with its items by key. -/
inductive Table where
  | mk (origin : Origin) (items : List (String × Item))

/-- What stands under a key; of an array of tables, the last element stands apart. -/
inductive Item where
  | value (entry : Entry)
  | table (table : Table)
  | elements (last : Table) (earlier : List Table)

end

namespace Table

def origin : Table → Origin
  | mk origin _ => origin

def items : Table → List (String × Item)
  | mk _ items => items

def get? (table : Table) (key : String) : Option Item := table.items.lookup key

/-- Put an item under a key, in place of the one that was there. -/
def put (table : Table) (key : String) (item : Item) : Table :=
  mk table.origin ((key, item) :: table.items.filter fun entry => entry.1 != key)

/-- Change the table at the end of a path. Tables on the way that are missing come to be by
`origin`. Where there is an array of tables the way goes on in its last element. There is no way
through a value, nor, by dotted keys, through a table with a header. -/
def update (origin : Origin) (change : Table → Option Table) :
    List String → Table → Option Table
  | [], table => change table
  | key :: path, table => do
    match table.get? key with
    | none =>
      let inner ← update origin change path (mk origin [])
      return table.put key (.table inner)
    | some (.value _) => none
    | some (.table inner) =>
      if origin = .dotted ∧ inner.origin = .header then none
      else
        let inner ← update origin change path inner
        return table.put key (.table inner)
    | some (.elements last earlier) =>
      let last ← update origin change path last
      return table.put key (.elements last earlier)

/-- Set a dotted key. It must be new, and its table must have come to be by dotted keys if the
key has more than one part. -/
def assign (path : List String) (key : String) (entry : Entry) (table : Table) : Option Table :=
  update .dotted (fun inner =>
    if (inner.origin == .dotted) == path.isEmpty || (inner.get? key).isSome then none
    else some (inner.put key (.value entry))) path table

/-- Open a table by its header. It may be there already only by a longer header. -/
def openTable (path : List String) (key : String) (table : Table) : Option Table :=
  update .path (fun inner =>
    match inner.get? key with
    | none => some (inner.put key (.table (mk .header [])))
    | some (.table existing) =>
      if existing.origin = .path then some (inner.put key (.table (mk .header existing.items)))
      else none
    | some _ => none) path table

/-- Append an element to an array of tables. -/
def openElement (path : List String) (key : String) (table : Table) : Option Table :=
  update .path (fun inner =>
    match inner.get? key with
    | none => some (inner.put key (.elements (mk .header []) []))
    | some (.elements last earlier) =>
      some (inner.put key (.elements (mk .header []) (last :: earlier)))
    | some _ => none) path table

/-- The table of a document before its first line, or of a value in braces. -/
def empty : Table := mk .header []

end Table

inductive Statement where
  | assign (path : List String) (key : String) (entry : Entry)
  | table (path : List String) (key : String)
  | element (path : List String) (key : String)

/-- The tables so far, and the path of the table that assignments go to. -/
structure Assembly where
  root : Table
  place : List String

namespace Assembly

def add (assembly : Assembly) : Statement → Option Assembly
  | .assign path key entry => do
    let root ← assembly.root.update .path (Table.assign path key entry) assembly.place
    return { assembly with root }
  | .table path key => do
    let root ← assembly.root.openTable path key
    return ⟨root, path ++ [key]⟩
  | .element path key => do
    let root ← assembly.root.openElement path key
    return ⟨root, path ++ [key]⟩

end Assembly

/-- The table that the lines of a document make up. -/
def tableOf (statements : List Statement) : Option Table :=
  (statements.foldlM Assembly.add ⟨Table.empty, []⟩).map (·.root)

end SolidScript.Document
