import SignatureLine.FileTree.Basic
import SignatureLine.Log
import SignatureLine.Mismatch

/-!
# What loading settings reports

The errors of reading a settings file, the event that tells of one, and their texts.
-/

namespace SignatureLine

/-- How a TOML document differs from a settings file. -/
inductive SettingsMismatch where
  | data (m : Mismatch)
  /-- A whitespace mode that is neither a string nor a table. -/
  | notStringOrTable
  /-- A whitespace mode that is a table with no key or with several. -/
  | notOneKey (isEmpty : Bool)
  /-- A whitespace mode whose name has something under it that is neither a table nor an array. -/
  | notTable (kind : Text)
  /-- A whitespace mode whose name has entries or elements under it. -/
  | notEmpty
  /-- A whitespace mode whose name has tables with headers of their own under it. -/
  | notEmptyTables
  deriving Repr, DecidableEq

/-- Floating-point values are written without exponents. -/
def SettingsMismatch.floatStyle : FloatStyle where
  tie := .up
  positional _ := true
  notANumber := "NaN".toList
  infinity := "inf".toList

def SettingsMismatch.message : SettingsMismatch → Text
  | .data m => m.message floatStyle
  | .notStringOrTable => "wanted string or table".toList
  | .notOneKey true => "wanted exactly 1 element, found 0 elements".toList
  | .notOneKey false => "wanted exactly 1 element, more than 1 element".toList
  | .notTable kind => "expected table, found ".toList ++ kind
  | .notEmpty => "expected empty table".toList
  | .notEmptyTables => "expected empty array".toList

/-- Why settings could not be loaded. -/
inductive SettingsError where
  | access (e : AccessError)
  /-- The text is no TOML document. -/
  | malformed
  | mismatch (m : SettingsMismatch)
  deriving Repr, DecidableEq

namespace SettingsError

/-- What was being done when the error arose. -/
def heading : SettingsError → Text
  | .access _ => "failed to read settings:".toList
  | .malformed => "failed to parse settings:".toList
  | .mismatch _ => "failed to parse settings:".toList

/-- The text of an error; for a text that is no TOML document, only what was being done. -/
def message (e : SettingsError) : Text :=
  match e with
  | .access a => e.heading ++ ' ' :: a.message
  | .malformed => e.heading
  | .mismatch m => e.heading ++ ' ' :: m.message

end SettingsError

/-- What loading settings tells. -/
inductive SettingsEvent where
  /-- A settings file is there but was not used. -/
  | ignored (path : Path) (error : SettingsError)
  deriving Repr, DecidableEq

namespace SettingsEvent

def level : SettingsEvent → Level
  | .ignored .. => .warn

def message : SettingsEvent → Text
  | .ignored .. => "ignoring settings file".toList

end SettingsEvent

end SignatureLine
