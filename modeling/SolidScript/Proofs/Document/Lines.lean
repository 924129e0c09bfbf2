import SolidScript.Proofs.Document.Numbers

/-!
# Reading the assignments of a settings document

A document of lines that assign numbers to different keys without quotes (`Assigns`) is read, and
its table has these numbers under these keys and nothing else.
-/

namespace SolidScript.Document

/-! ## Keys -/

/-- A key that can be written without quotes. -/
def IsBare (name : String) : Prop := name.toList ≠ [] ∧ ∀ c ∈ name.toList, isBareKey c

theorem ne_of_isBareKey {c d : Char} (hc : isBareKey c) (hd : ¬isBareKey d) : c ≠ d :=
  fun heq => hd (heq ▸ hc)

theorem IsBare.exists_cons {name : String} (h : IsBare name) :
    ∃ c tail, name.toList = c :: tail ∧ isBareKey c := by
  cases hname : name.toList with
  | nil => exact absurd hname h.1
  | cons c tail => exact ⟨c, tail, rfl, h.2 c (hname ▸ List.mem_cons_self)⟩

theorem keyPart_append {name : String} (h : IsBare name) {stop : Char} (hstop : ¬isBareKey stop)
    (rest : List Char) : keyPart (name.toList ++ stop :: rest) = some (name, stop :: rest) := by
  have htake : (name.toList ++ stop :: rest).takeWhile isBareKey = name.toList := by
    rw [List.takeWhile_append_of_pos h.2, List.takeWhile_cons_of_neg hstop, List.append_nil]
  have hdrop : (name.toList ++ stop :: rest).dropWhile isBareKey = stop :: rest := by
    rw [List.dropWhile_append_of_pos h.2, List.dropWhile_cons_of_neg hstop]
  obtain ⟨c, tail, hname, hc⟩ := h.exists_cons
  unfold keyPart
  split
  · rename_i heq
    rw [hname] at heq
    exact absurd (List.cons.inj heq).1 (ne_of_isBareKey hc (by decide))
  · rename_i heq
    rw [hname] at heq
    exact absurd (List.cons.inj heq).1 (ne_of_isBareKey hc (by decide))
  · dsimp only
    rw [htake, hdrop, if_neg (by simpa using h.1), String.ofList_toList]

theorem key_append {name : String} (h : IsBare name) (rest : List Char) :
    key (name.toList ++ ' ' :: '=' :: rest) = some (([], name), '=' :: rest) := by
  obtain ⟨c, tail, hname, hc⟩ := h.exists_cons
  have hspaces :
      spaces (name.toList ++ ' ' :: '=' :: rest) = name.toList ++ ' ' :: '=' :: rest := by
    rw [hname]
    exact spaces_cons (ne_of_isBareKey hc (by decide)) (ne_of_isBareKey hc (by decide)) _
  have hpart : spacedKeyPart (name.toList ++ ' ' :: '=' :: rest) = some (name, '=' :: rest) := by
    rw [spacedKeyPart, hspaces, keyPart_append h (by decide)]
    rfl
  unfold key
  rw [hpart]
  simp only [Option.bind_eq_bind, Option.bind_some]
  rw [repeated_of_none rfl]
  rfl

/-! ## Lines -/

theorem newline?_cons {c : Char} (hfeed : c ≠ '\n') (hreturn : c ≠ '\r') (rest : List Char) :
    newline? (c :: rest) = none := by
  unfold newline?
  split
  · rename_i heq
    exact absurd (List.cons.inj heq).1 hfeed
  · rename_i heq
    exact absurd (List.cons.inj heq).1 hreturn
  · rfl

theorem comment_cons {c : Char} (hmark : c ≠ '#') (rest : List Char) :
    comment (c :: rest) = c :: rest := by
  unfold comment
  split
  · rename_i heq
    exact absurd (List.cons.inj heq).1 hmark
  · rfl

theorem line_assignment {name : String} (hname : IsBare name) {text : List Char} {entry : Entry}
    (h : Reads text entry) (rest : List Char) :
    line (name.toList ++ ' ' :: '=' :: ' ' :: (text ++ '\n' :: rest)) =
      some (some (.assign [] name entry), rest) := by
  have hassignment : assignment (value nestingLimit)
      (name.toList ++ ' ' :: '=' :: ' ' :: (text ++ '\n' :: rest)) =
        some (([], name, entry), '\n' :: rest) := by
    have hspaces : spaces (' ' :: (text ++ '\n' :: rest)) = spaces (text ++ '\n' :: rest) :=
      List.dropWhile_cons_of_pos rfl
    simp only [assignment, key_append hname, word, if_true, hspaces, h nestingLimit rest,
      Option.bind_eq_bind, Option.bind_some]
    rfl
  obtain ⟨c, tail, htext, hc⟩ := hname.exists_cons
  rw [htext, List.cons_append] at hassignment ⊢
  have hne : ∀ d, ¬isBareKey d → c ≠ d := fun d hd => ne_of_isBareKey hc hd
  have hspaces := spaces_cons (hne ' ' (by decide)) (hne '\t' (by decide))
    (tail ++ ' ' :: '=' :: ' ' :: (text ++ '\n' :: rest))
  have hend : lineEnd? (c :: (tail ++ ' ' :: '=' :: ' ' :: (text ++ '\n' :: rest))) = none := by
    unfold lineEnd?
    rw [hspaces, comment_cons (hne '#' (by decide))]
    exact newline?_cons (hne '\n' (by decide)) (hne '\r' (by decide)) _
  unfold line
  rw [hspaces]
  split
  · rename_i heq
    exact absurd (List.cons.inj heq).1 (hne '[' (by decide))
  · rename_i heq
    exact absurd (List.cons.inj heq).1 (hne '[' (by decide))
  · rw [hend]
    dsimp only
    rw [hassignment]
    rfl

/-! ## Documents -/

/-- The text of lines that assign numbers to keys without quotes, one after the other. -/
inductive Assigns : List Char → List (String × Entry) → Prop where
  | nil : Assigns [] []
  | cons {name : String} {text rest : List Char} {entry : Entry}
      {assigned : List (String × Entry)} (hname : IsBare name) (htext : Reads text entry)
      (hrest : Assigns rest assigned) :
      Assigns (name.toList ++ ' ' :: '=' :: ' ' :: (text ++ '\n' :: rest))
        ((name, entry) :: assigned)

variable {text : List Char} {assigned : List (String × Entry)}

def assignments (assigned : List (String × Entry)) : List Statement :=
  assigned.map fun entry => .assign [] entry.1 entry.2

theorem Assigns.repeated_line (h : Assigns text assigned) :
    repeated line text = ((assignments assigned).map some, []) := by
  induction h with
  | nil =>
    rw [repeated]
    rfl
  | cons hname htext hrest ih =>
    rw [repeated_of_some (line_assignment hname htext _) (by simp; omega), ih]
    rfl

theorem Assigns.ne_mark (h : Assigns text assigned) (rest : List Char) :
    text ≠ '\ufeff' :: rest := by
  intro hmark
  cases h with
  | nil => cases hmark
  | cons hname htext hrest =>
    obtain ⟨c, tail, hcons, hc⟩ := hname.exists_cons
    rw [hcons] at hmark
    exact ne_of_isBareKey hc (by decide) (List.cons.inj hmark).1

theorem Assigns.statements_eq (h : Assigns text assigned) :
    statements text = some (assignments assigned) := by
  unfold statements
  split
  · exact absurd rfl (h.ne_mark _)
  · dsimp only
    rw [h.repeated_line]
    dsimp only
    rw [List.filterMap_map]
    exact congrArg some List.filterMap_some

/-! ## Tables -/

theorem lookup_filter_of_ne {α : Type} {key other : String} (hne : other ≠ key)
    (items : List (String × α)) :
    (items.filter fun entry => entry.1 != key).lookup other = items.lookup other := by
  induction items with
  | nil => rfl
  | cons entry items ih =>
    by_cases hkey : entry.1 = key
    · have hother : (other == entry.1) = false := beq_eq_false_iff_ne.mpr (hkey ▸ hne)
      rw [List.filter_cons_of_neg (by simp [hkey]), ih, List.lookup_cons, hother]
    · rw [List.filter_cons_of_pos (by simp [hkey]), List.lookup_cons, List.lookup_cons, ih]

namespace Table

theorem get?_put_self (table : Table) (key : String) (item : Item) :
    (table.put key item).get? key = some item := by
  show List.lookup key ((key, item) :: _) = some item
  rw [List.lookup_cons, beq_self_eq_true]

theorem get?_put_of_ne (table : Table) {key other : String} (hne : other ≠ key) (item : Item) :
    (table.put key item).get? other = table.get? other := by
  show List.lookup other ((key, item) :: _) = table.items.lookup other
  rw [List.lookup_cons, beq_eq_false_iff_ne.mpr hne]
  exact lookup_filter_of_ne hne table.items

end Table

theorem add_assign {root : Table} (horigin : root.origin = .header) {name : String}
    (hnew : root.get? name = none) (entry : Entry) :
    Assembly.add ⟨root, []⟩ (.assign [] name entry) =
      some ⟨root.put name (.value entry), []⟩ := by
  simp only [Assembly.add, Table.assign, Table.update, horigin, hnew]
  rfl

/-- Assignments to keys that are new and all different put each value under its key. -/
theorem foldlM_assignments {root : Table} (horigin : root.origin = .header)
    (hnodup : (assigned.map Prod.fst).Nodup)
    (hnew : ∀ name ∈ assigned.map Prod.fst, root.get? name = none) :
    ∃ table, (assignments assigned).foldlM Assembly.add ⟨root, []⟩ = some ⟨table, []⟩ ∧
      ∀ key, table.get? key = ((assigned.lookup key).map Item.value <|> root.get? key) := by
  induction assigned generalizing root with
  | nil => exact ⟨root, rfl, fun _ => rfl⟩
  | cons first assigned ih =>
    obtain ⟨name, entry⟩ := first
    obtain ⟨hfirst, hnodup⟩ := List.nodup_cons.mp hnodup
    obtain ⟨hnewFirst, hnew⟩ := List.forall_mem_cons.mp hnew
    have hne : ∀ other ∈ assigned.map Prod.fst, other ≠ name := fun other hother heq =>
      hfirst (heq ▸ hother)
    have hput : (root.put name (.value entry)).origin = .header := horigin
    obtain ⟨table, hfold, hget⟩ := ih hput hnodup fun other hother => by
      rw [root.get?_put_of_ne (hne other hother), hnew other hother]
    refine ⟨table, ?_, fun key => ?_⟩
    · show (Assembly.add ⟨root, []⟩ (.assign [] name entry) >>=
        fun next => (assignments assigned).foldlM Assembly.add next) = _
      rw [add_assign horigin hnewFirst]
      exact hfold
    · rw [hget key, List.lookup_cons]
      by_cases hkey : key = name
      · have hlookup : assigned.lookup name = none :=
          List.lookup_eq_none_iff.mpr fun other hother =>
            bne_iff_ne.mpr (hne other.1 (List.mem_map_of_mem hother)).symm
        rw [hkey, hlookup, root.get?_put_self, beq_self_eq_true]
        rfl
      · rw [root.get?_put_of_ne hkey, beq_eq_false_iff_ne.mpr hkey]

/-- A document of assignments to different keys is read, and has each value under its key. -/
theorem Assigns.exists_table {text : String} (h : Assigns text.toList assigned)
    (hnodup : (assigned.map Prod.fst).Nodup) :
    ∃ table, read text = some table ∧
      ∀ key, table.get? key = (assigned.lookup key).map Item.value := by
  have hempty : Table.empty.origin = .header := rfl
  obtain ⟨table, hfold, hget⟩ := foldlM_assignments hempty hnodup fun _ _ => rfl
  refine ⟨table, ?_, fun key => ?_⟩
  · unfold read
    rw [h.statements_eq, Option.bind_eq_bind, Option.bind_some, tableOf, hfold]
    rfl
  · rw [hget key]
    cases assigned.lookup key <;> rfl

end SolidScript.Document
