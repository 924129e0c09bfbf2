/-!
# Named arguments

A finite map from names to values, kept in ascending order of the names. Names are compared
character by character by code point, which is also the order of their UTF-8 bytes.
-/

namespace SolidScript

/-- Names with values, each name once, in ascending order. -/
structure Named (V : Type) where
  entries : List (String × V)
  sorted : entries.Pairwise fun a b => a.1 < b.1

namespace Named

variable {V : Type}

/-- Put a value under a name, in place of the one that was there. -/
def insertEntry (name : String) (value : V) : List (String × V) → List (String × V)
  | [] => [(name, value)]
  | entry :: rest =>
    if name < entry.1 then (name, value) :: entry :: rest
    else if name = entry.1 then (name, value) :: rest
    else entry :: insertEntry name value rest

theorem mem_insertEntry {name : String} {value : V} {entries : List (String × V)}
    {entry : String × V} (h : entry ∈ insertEntry name value entries) :
    entry = (name, value) ∨ entry ∈ entries := by
  induction entries with
  | nil => simpa [insertEntry] using h
  | cons first rest ih =>
    unfold insertEntry at h
    split at h
    · simpa using h
    · split at h
      · rcases List.mem_cons.mp h with h | h
        · exact .inl h
        · exact .inr (List.mem_cons_of_mem _ h)
      · rcases List.mem_cons.mp h with h | h
        · exact .inr (h ▸ List.mem_cons_self)
        · exact (ih h).imp_right (List.mem_cons_of_mem _)

theorem sorted_insertEntry (name : String) (value : V) {entries : List (String × V)}
    (h : entries.Pairwise fun a b => a.1 < b.1) :
    (insertEntry name value entries).Pairwise fun a b => a.1 < b.1 := by
  induction entries with
  | nil => simp [insertEntry]
  | cons first rest ih =>
    have hrest := List.pairwise_cons.mp h
    unfold insertEntry
    split
    · rename_i hlt
      refine List.pairwise_cons.mpr ⟨fun entry hmem => ?_, h⟩
      rcases List.mem_cons.mp hmem with rfl | hmem
      · exact hlt
      · exact String.lt_trans hlt (hrest.1 _ hmem)
    · split
      · rename_i heq
        exact List.pairwise_cons.mpr ⟨fun entry hmem => heq ▸ hrest.1 _ hmem, hrest.2⟩
      · rename_i hlt hne
        have hfirst : first.1 < name := by
          have hle := String.not_lt.mp hlt
          by_cases hgt : first.1 < name
          · exact hgt
          · exact absurd (String.le_antisymm (String.not_lt.mp hgt) hle) hne
        refine List.pairwise_cons.mpr ⟨fun entry hmem => ?_, ih hrest.2⟩
        rcases mem_insertEntry hmem with rfl | hmem
        · exact hfirst
        · exact hrest.1 _ hmem

def empty : Named V := ⟨[], List.Pairwise.nil⟩

instance : EmptyCollection (Named V) := ⟨empty⟩

def insert (named : Named V) (name : String) (value : V) : Named V :=
  ⟨insertEntry name value named.entries, sorted_insertEntry name value named.sorted⟩

/-- Put many values in turn; of two under one name the later one stays. -/
def insertAll (named : Named V) (entries : List (String × V)) : Named V :=
  entries.foldl (fun acc entry => acc.insert entry.1 entry.2) named

/-- The map of a list of pairs, the later of two under one name. -/
def ofList (entries : List (String × V)) : Named V := empty.insertAll entries

def get? (named : Named V) (name : String) : Option V :=
  (named.entries.find? fun entry => entry.1 == name).map (·.2)

theorem get?_empty (key : String) : (empty : Named V).get? key = none := rfl

theorem find?_insertEntry (name : String) (value : V) (key : String)
    (entries : List (String × V)) :
    ((insertEntry name value entries).find? fun entry => entry.1 == key) =
      if name = key then some (name, value) else entries.find? fun entry => entry.1 == key := by
  induction entries with
  | nil => by_cases hkey : name = key <;> simp [insertEntry, hkey]
  | cons first rest ih =>
    unfold insertEntry
    split
    · by_cases hkey : name = key <;> simp [hkey]
    · split
      · rename_i hname
        by_cases hkey : name = key <;> simp [← hname, hkey]
      · rename_i hname
        by_cases hfirst : first.1 = key
        · have hkey : ¬name = key := fun h => hname (h.trans hfirst.symm)
          simp [hfirst, hkey]
        · simp [hfirst, ih]

theorem get?_insert (named : Named V) (name : String) (value : V) (key : String) :
    (named.insert name value).get? key = if name = key then some value else named.get? key := by
  unfold get? insert
  rw [find?_insertEntry]
  split <;> rfl

/-- Put a value under a name if there is one. -/
def insert? (named : Named V) (name : String) (value : Option V) : Named V :=
  match value with
  | some v => named.insert name v
  | none => named

theorem get?_insert? (named : Named V) (name : String) (value : Option V) (key : String) :
    (named.insert? name value).get? key =
      if name = key then value.or (named.get? key) else named.get? key := by
  cases value with
  | none => simp [insert?]
  | some v => exact get?_insert named name v key

instance [BEq V] : BEq (Named V) := ⟨fun a b => a.entries == b.entries⟩

end Named

end SolidScript
