import SignatureLine.Json.Fragment
import SignatureLine.Mismatch

/-!
# Decoding JSON

Reading data out of what is left of a JSON text. The problem that is reported is the first one in
the order of the text.
-/

namespace SignatureLine.Json

/-- Why a text is not accepted. -/
inductive DecodeError where
  /-- The text is not JSON. -/
  | malformed
  /-- The text is JSON so far, and its data is not what is asked for. -/
  | mismatch (m : Mismatch)
  deriving Repr, DecidableEq

/-- Data read from JSON, or why there is none. -/
abbrev Decoded (α : Type) := Except DecodeError α

/-- Floating-point values are written with an exponent where that spares more than a few zeros. -/
def floatStyle : FloatStyle where
  tie := .even
  positional point := -5 < point ∧ point ≤ 16
  notANumber := []
  infinity := []

def DecodeError.message? : DecodeError → Option Text
  | .malformed => none
  | .mismatch m => some (m.message floatStyle)

/-- Fails unless the JSON is whole. -/
def demandWhole (whole : Bool) : Decoded Unit :=
  if whole then .ok () else .error .malformed

namespace Fragment

/-- What a message calls the value, if enough of it could be read to tell. An array or an object is
known by its first token. -/
def found? : Fragment → Option Found
  | .broken => none
  | .null => some .null
  | .boolean b => some (.boolean b)
  | .number none => none
  | .number (some (.integer n)) => some (.integer n)
  | .number (some (.float x)) => some (.float x)
  | .string none => none
  | .string (some s) => some (.string s)
  | .array .. => some .sequence
  | .object .. => some .map

/-- The error for a value that is not of the expected kind. -/
def refuse {α : Type} (f : Fragment) (expected : String) : Decoded α :=
  match f.found? with
  | some found => .error (.mismatch (.wrongType found expected.toList))
  | none => .error .malformed

def decodeString : Fragment → Decoded Text
  | .string (some s) => .ok s
  | f => f.refuse "a string"

/-- An array whose elements are all decoded by `decode`. -/
def decodeArray {α : Type} (decode : Fragment → Decoded α) : Fragment → Decoded (List α)
  | .array elements closed => do
      let values ← elements.mapM decode
      demandWhole closed
      return values
  | f => f.refuse "a sequence"

/-- Takes the members of an object in order, adding each to a draft of the record. -/
def addMembers {σ : Type} (add : σ → Text → Fragment → Decoded σ) :
    σ → List (Option Text × Fragment) → Decoded σ
  | draft, [] => .ok draft
  | draft, (some key, value) :: members => do
      addMembers add (← add draft key value) members
  | _, (none, _) :: _ => .error .malformed

/-- A field of a draft when one more member of its name comes. -/
def fillField {α : Type} (name : String) (field : Option α) (decode : Fragment → Decoded α)
    (value : Fragment) : Decoded (Option α) :=
  match field with
  | some _ => .error (.mismatch (.duplicateField name.toList))
  | none => return some (← decode value)

/-- A field of a finished draft. -/
def demandField {α : Type} (name : String) : Option α → Decoded α
  | some a => .ok a
  | none => .error (.mismatch (.missingField name.toList))

/-- The next element of an array that a record is read from by position. -/
def nextElement (expected : String) (index : Nat) (closed : Bool) :
    List Fragment → Decoded (Fragment × List Fragment)
  | e :: elements => .ok (e, elements)
  | [] => do
      demandWhole closed
      .error (.mismatch (.wrongLength index expected.toList))

end Fragment

/-- Decodes a text that holds one value and nothing else. What follows the value is looked at
last. -/
def decodeText {α : Type} (decode : Fragment → Decoded α) (s : Text) : Decoded α := do
  let document := Document.ofText s
  let value ← decode document.value
  demandWhole document.isWhole
  return value

end SignatureLine.Json
