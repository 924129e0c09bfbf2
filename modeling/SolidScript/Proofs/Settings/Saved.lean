import SolidScript.Proofs.Document.Lines
import SolidScript.Settings.Document

/-!
# Saved settings come back

The document of some settings assigns the numbers that are set and nothing else (`assigned`). It is
read as these settings, with the standard ones in place of those that are not set, whatever numbers
they are but undefined ones (`ofDocument_document`).
-/

namespace SolidScript.Settings

open Document Number

/-! ## The document -/

/-- No number that is set is undefined. -/
structure IsDefined (settings : Settings) : Prop where
  angle : ∀ angle ∈ settings.fragmentAngle, angle.isNaN = false
  size : ∀ size ∈ settings.fragmentSize, size.isNaN = false

def assigned (settings : Settings) : List (String × Entry) :=
  (settings.fragmentAngle.map fun angle => ("fa", .decimal angle)).toList ++
    ((settings.fragmentSize.map fun size => ("fs", .decimal size)).toList ++
      (settings.fragmentCount.map fun count => ("fn", .integer count.toNat)).toList)

theorem reads_number {x : Float} (h : x.isNaN = false) :
    Reads (Layout.settings.text x).toList (.decimal x) := by
  cases hdecode : decode x with
  | finite negative m q => exact reads_finite hdecode
  | infinite negative => exact reads_infinite hdecode
  | undefined => exact absurd hdecode (decode_ne_undefined h)

theorem reads_count (count : UInt32) : Reads (countText count).toList (.integer count.toNat) := by
  refine reads_natural ((UInt32.toNat_lt count).trans ?_)
  decide

theorem assigns_entryLine {α : Type} {name : String} (hname : IsBare name) {write : α → String}
    {entry : α → Entry} {value : Option α}
    (hreads : ∀ a ∈ value, Reads (write a).toList (entry a)) {rest : List Char}
    {others : List (String × Entry)} (hrest : Assigns rest others) :
    Assigns ((entryLine name (value.map write)).toList ++ rest)
      ((value.map fun a => (name, entry a)).toList ++ others) := by
  cases value with
  | none => exact hrest
  | some a =>
    have hline := Assigns.cons hname (hreads a rfl) hrest
    simpa [entryLine] using hline

theorem assigns_document {settings : Settings} (h : settings.IsDefined) :
    Assigns settings.document.toList settings.assigned := by
  have hfa : IsBare "fa" := ⟨by decide, List.all_eq_true.mp rfl⟩
  have hfs : IsBare "fs" := ⟨by decide, List.all_eq_true.mp rfl⟩
  have hfn : IsBare "fn" := ⟨by decide, List.all_eq_true.mp rfl⟩
  have hcount := assigns_entryLine hfn (fun count (_ : count ∈ settings.fragmentCount) =>
    reads_count count) .nil
  have hsize := assigns_entryLine hfs (fun size hsize => reads_number (h.size size hsize)) hcount
  have hangle := assigns_entryLine hfa (fun angle hangle => reads_number (h.angle angle hangle))
    hsize
  simpa only [document, assigned, String.toList_append, List.append_assoc, List.append_nil]
    using hangle

theorem nodup_assigned (settings : Settings) : (settings.assigned.map Prod.fst).Nodup := by
  obtain ⟨angle, size, count⟩ := settings
  cases angle <;> cases size <;> cases count <;> simp [assigned]

theorem lookup_assigned (settings : Settings) :
    settings.assigned.lookup "fa" = settings.fragmentAngle.map Entry.decimal ∧
      settings.assigned.lookup "fs" = settings.fragmentSize.map Entry.decimal ∧
      settings.assigned.lookup "fn" =
        settings.fragmentCount.map fun count => Entry.integer count.toNat := by
  obtain ⟨angle, size, count⟩ := settings
  cases angle <;> cases size <;> cases count <;> exact ⟨rfl, rfl, rfl⟩

/-! ## What is read -/

variable {table : Table} {name : String}

theorem numberAt_eq {value : Option Float}
    (h : table.get? name = (value.map Entry.decimal).map Item.value) (standard : Option Float) :
    numberAt table name standard = some (value <|> standard) := by
  unfold numberAt
  rw [h]
  cases value <;> rfl

theorem countAt_eq {value : Option UInt32}
    (h : table.get? name = (value.map fun count => Entry.integer count.toNat).map Item.value)
    (standard : Option UInt32) : countAt table name standard = some (value <|> standard) := by
  unfold countAt
  rw [h]
  cases value with
  | none => rfl
  | some count =>
    show (if _ then _ else _) = _
    rw [if_pos ⟨Int.natCast_nonneg _, Int.ofNat_lt.mpr (UInt32.toNat_lt count)⟩, Int.toNat_natCast,
      UInt32.ofNat_toNat]
    rfl

/-- Settings without undefined numbers come back from their document: each value that is set is the
same again, and the standard one stands for each that is not. -/
theorem ofDocument_document {settings : Settings} (h : settings.IsDefined) :
    ofDocument settings.document = .ok
      { fragmentAngle := settings.fragmentAngle <|> standard.fragmentAngle
        fragmentSize := settings.fragmentSize <|> standard.fragmentSize
        fragmentCount := settings.fragmentCount <|> standard.fragmentCount } := by
  obtain ⟨table, hread, hget⟩ := (assigns_document h).exists_table settings.nodup_assigned
  obtain ⟨hfa, hfs, hfn⟩ := settings.lookup_assigned
  have hangle := numberAt_eq ((hget "fa").trans (congrArg _ hfa)) standard.fragmentAngle
  have hsize := numberAt_eq ((hget "fs").trans (congrArg _ hfs)) standard.fragmentSize
  have hcount := countAt_eq ((hget "fn").trans (congrArg _ hfn)) standard.fragmentCount
  have htable : ofTable? table = some
      { fragmentAngle := settings.fragmentAngle <|> standard.fragmentAngle
        fragmentSize := settings.fragmentSize <|> standard.fragmentSize
        fragmentCount := settings.fragmentCount <|> standard.fragmentCount } := by
    rw [ofTable?, hangle, hsize, hcount]
    rfl
  rw [ofDocument, hread, Option.bind_eq_bind, Option.bind_some, htable]

/-! ## A subnormal angle and the most fragments -/

/-- The least angle there is, and the greatest number of fragments. -/
def finest : Settings := ⟨some (Float.ofBits 1), none, some 4294967295⟩

theorem finest_document_read :
    finest.IsDefined ∧
      ofDocument finest.document = .ok ⟨some (Float.ofBits 1), some 0.5, some 4294967295⟩ := by
  have hdefined : finest.IsDefined :=
    ⟨fun angle hangle => by cases hangle; decide, fun size hsize => by cases hsize⟩
  exact ⟨hdefined, ofDocument_document hdefined⟩

end SolidScript.Settings
