import SignatureLine.Number.Binary64

/-!
# TOML values

The data of a TOML document: tables of entries in the order of the document.
-/

namespace SignatureLine.Toml

/-- How a table came into being, which decides what may still be added to it. -/
inductive Origin where
  /-- Written in braces: nothing may be added. -/
  | inline
  /-- Opened by a header of its own. -/
  | header
  /-- Only named on the way to the table of a longer header. -/
  | supertable
  /-- Only named on the way to the value of a dotted key. -/
  | dotted
  deriving Repr, DecidableEq

/-- A table whose entries have values of type `α`. -/
structure TableOf (α : Type) where
  origin : Origin
  entries : List (Text × α)
  deriving Repr

inductive Value where
  | string (s : Text)
  | integer (n : Int)
  | float (x : Binary64)
  | boolean (b : Bool)
  | datetime
  | array (elements : List Value)
  | table (t : TableOf Value)
  /-- An array that was written as headers in double brackets. -/
  | tables (ts : List (TableOf Value))

abbrev Table := TableOf Value

def Value.kind : Value → Text
  | .string _ => "string".toList
  | .integer _ => "integer".toList
  | .float _ => "float".toList
  | .boolean _ => "boolean".toList
  | .datetime => "datetime".toList
  | .array _ => "array".toList
  | .table _ => "table".toList
  | .tables _ => "array of tables".toList

namespace Table

def empty (origin : Origin) : Table :=
  ⟨origin, []⟩

def find? (t : Table) (key : Text) : Option Value :=
  t.entries.lookup key

/-- Adds an entry after the others. -/
def append (t : Table) (key : Text) (v : Value) : Table :=
  { t with entries := t.entries ++ [(key, v)] }

def erase (t : Table) (key : Text) : Table :=
  { t with entries := t.entries.filter (·.1 != key) }

/-- Changes the value under a key, in its place. -/
def replace (t : Table) (key : Text) (v : Value) : Table :=
  { t with entries := t.entries.map fun e => if e.1 == key then (key, v) else e }

end Table

end SignatureLine.Toml
