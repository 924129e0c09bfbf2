import SolidScript.Document.Lines
import SolidScript.Number.Shortest
import SolidScript.Settings.Basic
import SolidScript.Text.Blank

/-!
# Settings in documents and in the environment

Settings are kept in a document with the keys `fa`, `fs` and `fn`, of which those that are set
are written, numbers as the shortest decimals that read back. What a document leaves out is as in
the standard settings. Texts from the environment go before the document where they can be read,
and are ignored where they cannot.
-/

namespace SolidScript

/-- Why settings were not taken over. -/
inductive SettingsFault where
  | unreadable
  | malformed
  | unwritable
  /-- The script does not fit where it is to be written. -/
  | noRoom
  deriving DecidableEq, Repr

def SettingsFault.message : SettingsFault → String
  | unreadable => "Failed to read config file"
  | malformed => "Failed to parse config file"
  | unwritable => "Failed to write config file"
  | noRoom => "Failed to write script"

namespace Settings

open Document

/-- The assignment of a value to a key, if there is a value. -/
def entryLine (key : String) (value : Option String) : String :=
  match value with
  | some text => key ++ " = " ++ text ++ "\n"
  | none => ""

def document (settings : Settings) : String :=
  entryLine "fa" (settings.fragmentAngle.map Number.Layout.settings.text) ++
    entryLine "fs" (settings.fragmentSize.map Number.Layout.settings.text) ++
    entryLine "fn" (settings.fragmentCount.map countText)

/-- A number under a key, or the standard one; nothing if something else stands there. -/
def numberAt (table : Table) (key : String) (standard : Option Float) : Option (Option Float) :=
  match table.get? key with
  | none => some standard
  | some (.value (.integer n)) =>
    some (some (Number.Numeral.toFloat ⟨decide (n < 0), n.natAbs, 0⟩))
  | some (.value (.decimal x)) => some (some x)
  | some _ => none

/-- A number of fragments under a key, or the standard one; nothing if something else stands
there, or a number that does not fit. -/
def countAt (table : Table) (key : String) (standard : Option UInt32) : Option (Option UInt32) :=
  match table.get? key with
  | none => some standard
  | some (.value (.integer n)) =>
    if 0 ≤ n ∧ n < UInt32.size then some (some (UInt32.ofNat n.toNat)) else none
  | some _ => none

/-- The settings in a table; keys it does not know do not matter. -/
def ofTable? (table : Table) : Option Settings := do
  let fragmentAngle ← numberAt table "fa" standard.fragmentAngle
  let fragmentSize ← numberAt table "fs" standard.fragmentSize
  let fragmentCount ← countAt table "fn" standard.fragmentCount
  return { fragmentAngle, fragmentSize, fragmentCount }

def ofDocument (text : String) : Except SettingsFault Settings :=
  match Document.read text >>= ofTable? with
  | some settings => .ok settings
  | none => .error .malformed

/-- A value in place of another one, if there is a text and it can be read. -/
def override {α : Type} (read : String → Option α) (text : Option String) (current : Option α) :
    Option α :=
  (text.bind fun raw => read (String.ofList (Text.trim raw.toList))) <|> current

/-- The settings with those that the environment gives. -/
def withEnvironment (settings : Settings) (angle size count : Option String) : Settings where
  fragmentAngle := override Number.Numeral.float? angle settings.fragmentAngle
  fragmentSize := override Number.Numeral.float? size settings.fragmentSize
  fragmentCount :=
    override (fun text => (Number.Numeral.natural? UInt32.size text).map UInt32.ofNat) count
      settings.fragmentCount

/-- The settings of a run: those of the document if there is one, else the standard ones, and the
environment before either. -/
def load (document angle size count : Option String) : Except SettingsFault Settings := do
  let settings ← match document with
    | some text => ofDocument text
    | none => .ok standard
  return settings.withEnvironment angle size count

end Settings

end SolidScript
