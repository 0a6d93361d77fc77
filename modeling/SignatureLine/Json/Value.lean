import SignatureLine.Text.Digits

/-!
# Writing JSON

JSON values of the kinds that records are made of, and their text in two layouts: without any white
space, and with one element a line.
-/

namespace SignatureLine.Json

/-- A JSON value that records are written as. -/
inductive Value where
  | null
  | string (s : Text)
  | array (elements : List Value)
  | object (members : List (Text × Value))
  deriving Repr

/-- One character of a JSON string. Only what JSON demands is escaped. -/
def escape (c : Char) : Text :=
  if c = '"' then ['\\', '"']
  else if c = '\\' then ['\\', '\\']
  else if c = '\x08' then ['\\', 'b']
  else if c = '\x0c' then ['\\', 'f']
  else if c = '\n' then ['\\', 'n']
  else if c = '\r' then ['\\', 'r']
  else if c = '\t' then ['\\', 't']
  else if c.toNat < 0x10 then ['\\', 'u', '0', '0', '0'] ++ Text.hex c.toNat
  else if c.toNat < 0x20 then ['\\', 'u', '0', '0'] ++ Text.hex c.toNat
  else [c]

def writeString (s : Text) : Text :=
  '"' :: s.flatMap escape ++ ['"']

/-- The white space that is written between tokens. -/
structure Layout where
  /-- What comes before an element, or before a closing bracket, at a depth of nesting. -/
  lineBreak : Nat → Text
  /-- What comes after the colon of a member. -/
  afterColon : Text

namespace Layout

def compact : Layout :=
  ⟨fun _ => [], []⟩

/-- One element a line, indented by two spaces for each level of nesting. -/
def indented : Layout :=
  ⟨fun depth => '\n' :: List.replicate (2 * depth) ' ', [' ']⟩

end Layout

namespace Value

mutual

/-- The text of a value at a depth of nesting. -/
def writeAt (layout : Layout) (depth : Nat) : Value → Text
  | .null => "null".toList
  | .string s => writeString s
  | .array [] => ['[', ']']
  | .array (e :: es) =>
      '[' :: layout.lineBreak (depth + 1) ++ e.writeAt layout (depth + 1) ++
        writeElements layout depth es
  | .object [] => ['\x7b', '\x7d']
  | .object ((key, e) :: ms) =>
      '\x7b' :: layout.lineBreak (depth + 1) ++ writeString key ++ ':' :: layout.afterColon ++
        e.writeAt layout (depth + 1) ++ writeMembers layout depth ms

/-- The further elements of an array at a depth of nesting, and its end. -/
def writeElements (layout : Layout) (depth : Nat) : List Value → Text
  | [] => layout.lineBreak depth ++ [']']
  | e :: es =>
      ',' :: layout.lineBreak (depth + 1) ++ e.writeAt layout (depth + 1) ++
        writeElements layout depth es

/-- The further members of an object at a depth of nesting, and its end. -/
def writeMembers (layout : Layout) (depth : Nat) : List (Text × Value) → Text
  | [] => layout.lineBreak depth ++ ['\x7d']
  | (key, e) :: ms =>
      ',' :: layout.lineBreak (depth + 1) ++ writeString key ++ ':' :: layout.afterColon ++
        e.writeAt layout (depth + 1) ++ writeMembers layout depth ms

end

def write (layout : Layout) (v : Value) : Text :=
  v.writeAt layout 0

end Value

end SignatureLine.Json
