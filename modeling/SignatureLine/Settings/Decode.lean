import SignatureLine.Settings.Basic
import SignatureLine.Settings.Error
import SignatureLine.Toml.Document

/-!
# Settings from TOML

Reading settings from the root table of a TOML document. Only the entry `parser` counts. Of two
wrong entries the one that comes first in the document is reported.
-/

namespace SignatureLine

open Toml (Value Table)

/-- Settings data, or how a document differs from it. -/
abbrev FromToml (α : Type) := Except SettingsMismatch α

/-- What a message calls a value. A date or time is read like a table. -/
def Toml.Value.found : Value → Found
  | .string s => .string s
  | .integer n => .integer n
  | .float x => .float x
  | .boolean b => .boolean b
  | .datetime => .map
  | .array _ => .sequence
  | .table _ => .map
  | .tables _ => .sequence

namespace WhitespaceMode

def fromName (s : Text) : FromToml WhitespaceMode :=
  match ofName? s with
  | some mode => .ok mode
  | none => .error (.data (.unknownVariant s (all.map name)))

/-- Demands that nothing is said about a mode but its name: a value that can hold others holds
none. -/
def demandEmpty : Value → FromToml Unit
  | .table ⟨_, []⟩ => .ok ()
  | .table _ => .error .notEmpty
  | .array [] => .ok ()
  | .array _ => .error .notEmpty
  | .tables [] => .ok ()
  | .tables _ => .error .notEmptyTables
  | v => .error (.notTable v.kind)

/-- A mode is its name, or a table with the name for its one key and an empty table or array under
it. -/
def fromToml : Value → FromToml WhitespaceMode
  | .string s => fromName s
  | .table ⟨_, []⟩ => .error (.notOneKey true)
  | .table ⟨_, [(key, v)]⟩ => do
      let mode ← fromName key
      demandEmpty v
      return mode
  | .table _ => .error (.notOneKey false)
  | _ => .error .notStringOrTable

end WhitespaceMode

namespace ParserSettings

def strictFromToml : Value → FromToml Bool
  | .boolean b => .ok b
  | v => .error (.data (.wrongType v.found "a boolean".toList))

/-- Takes one entry of the parser table; one of another name is ignored. -/
def addEntry (p : ParserSettings) (entry : Text × Value) : FromToml ParserSettings := do
  if entry.1 = "whitespace".toList then
    return { p with whitespace := some (← WhitespaceMode.fromToml entry.2) }
  else if entry.1 = "strict_arguments".toList then
    return { p with strictArguments := some (← strictFromToml entry.2) }
  else return p

/-- The section as a table. -/
def ofEntries (entries : List (Text × Value)) : FromToml ParserSettings :=
  entries.foldlM addEntry {}

/-- The section as an array: the mode, whether parsing is strict, and anything after that. -/
def ofElements : List Value → FromToml ParserSettings
  | [] => tooShort 0
  | [whitespace] => do
      let _ ← WhitespaceMode.fromToml whitespace
      tooShort 1
  | whitespace :: strict :: _ => do
      let whitespace ← WhitespaceMode.fromToml whitespace
      let strict ← strictFromToml strict
      return ⟨some whitespace, some strict⟩
where
  tooShort (n : Nat) : FromToml ParserSettings :=
    .error (.data (.wrongLength n "struct ParserSettings with 2 elements".toList))

/-- The section in any of its forms. A date or time is a section that says nothing. -/
def fromToml : Value → FromToml ParserSettings
  | .table t => ofEntries t.entries
  | .array elements => ofElements elements
  | .tables ts => ofElements (ts.map .table)
  | .datetime => .ok {}
  | v => .error (.data (.wrongType v.found "struct ParserSettings".toList))

end ParserSettings

namespace Settings

/-- The settings in the root table of a document. -/
def ofTable (root : Table) : FromToml Settings :=
  match root.find? "parser".toList with
  | none => .ok {}
  | some v => return ⟨some (← ParserSettings.fromToml v)⟩

def ofText (s : Text) : Except SettingsError Settings :=
  match Table.ofText? s with
  | none => .error .malformed
  | some root => (ofTable root).mapError .mismatch

end Settings

end SignatureLine
