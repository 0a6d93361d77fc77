import SignatureLine.Toml.Dates
import SignatureLine.Toml.Numbers
import SignatureLine.Toml.Strings
import SignatureLine.Toml.Table

/-!
# TOML documents

Reading a whole document into its root table. A text that is no TOML document has none.
-/

namespace SignatureLine.Toml

open Reader

/-- How deep arrays and braces may be nested, and how many parts a key may have. -/
def nestingLimit : Nat := 79

/-! ## Keys -/

def isBareKeyChar (c : Char) : Bool :=
  c.isAlphanum || c == '_' || c == '-'

def keyPart : Reader Text :=
  basicString <|> literalString <|> takeWhile1 isBareKeyChar

/-- The parts of a key between points, with blanks around each. -/
def keyParts : Nat → Reader (List Text)
  | 0 => failure
  | n + 1 => do
      blanks
      let part ← keyPart
      blanks
      if ← tryAccept '.' then return part :: (← keyParts n)
      return [part]

def keyPath : Reader KeyPath := do
  let parts ← repeating keyParts
  guard (parts.length ≤ nestingLimit)
  let key ← parts.getLast?
  return ⟨parts.dropLast, key⟩

/-! ## Values -/

/-- A value that holds no others. -/
def scalar : Reader Value := do
  match ← peek? with
  | some '"' | some '\'' => return .string (← anyString)
  | some 't' => do word "true".toList; return .boolean true
  | some 'f' => do word "false".toList; return .boolean false
  | _ =>
      (do datetime; return .datetime) <|> (do return .float (← float)) <|>
        (do return .integer (← integer))

/-- The elements of an array and its end. A comma may come after the last one. -/
def elements (value : Reader Value) : Nat → Reader (List Value)
  | 0 => failure
  | n + 1 => do
      gap
      if ← tryAccept ']' then return []
      let v ← value
      gap
      if ← tryAccept ',' then return v :: (← elements value n)
      accept ']'
      return [v]

/-- The entries of a table in braces and its end, on one line. No comma comes after the last one. -/
def bracedEntries (value : Reader Value) : Nat → Reader (List Entry)
  | 0 => failure
  | n + 1 => do
      let path ← keyPath
      accept '='
      blanks
      let e : Entry := ⟨path, ← value⟩
      blanks
      if ← tryAccept ',' then return e :: (← bracedEntries value n)
      accept '\x7d'
      return [e]

def bracedTable (value : Reader Value) : Reader Table := do
  accept '\x7b'
  blanks
  let entries ← if ← tryAccept '\x7d' then pure [] else repeating (bracedEntries value)
  ((Table.empty .inline).addEntries entries : Option Table)

/-- A value in which arrays and braces are nested at most to the given depth. -/
def value : Nat → Reader Value
  | 0 => scalar
  | depth + 1 => do
      match ← peek? with
      | some '[' => do
          accept '['
          return .array (← repeating (elements (value depth)))
      | some '\x7b' => return .table (← bracedTable (value depth))
      | _ => scalar

/-! ## Lines -/

/-- What one line says. -/
inductive Line where
  | blank
  | entry (e : Entry)
  | header (kind : HeaderKind) (path : KeyPath)

def header : Reader Line := do
  accept '['
  let kind := if ← tryAccept '[' then .element else .table
  let path ← keyPath
  if kind = .element then accept ']'
  accept ']'
  return .header kind path

def keyValue : Reader Line := do
  let path ← keyPath
  accept '='
  blanks
  return .entry ⟨path, ← value nestingLimit⟩

def line : Reader Line := do
  blanks
  let content ← match ← peek? with
    | none | some '#' | some '\n' | some '\r' => pure .blank
    | some '[' => header
    | some _ => keyValue
  lineEnd
  return content

def lines : Nat → Reader (List Line)
  | 0 => failure
  | n + 1 => do
      if ← atEnd then return []
      return (← line) :: (← lines n)

/-- The entries before the first header, and the headers with the entries below each. -/
def sections : List Line → List Entry × List Section
  | [] => ([], [])
  | .blank :: rest => sections rest
  | .entry e :: rest =>
      let (entries, later) := sections rest
      (e :: entries, later)
  | .header kind path :: rest =>
      let (entries, later) := sections rest
      ([], ⟨kind, path, entries⟩ :: later)

def Table.ofLines? (ls : List Line) : Option Table := do
  let (entries, later) := sections ls
  later.foldlM Table.addSection (← (Table.empty .header).addEntries entries)

/-- The root table of a document. A byte order mark at its start is skipped. -/
def Table.ofText? (s : Text) : Option Table := do
  let s := match s with
    | '\uFEFF' :: rest => rest
    | _ => s
  let (ls, _) ← (repeating lines).run s
  ofLines? ls

end SignatureLine.Toml
