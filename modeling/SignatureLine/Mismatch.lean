import SignatureLine.Number.Style
import SignatureLine.Text.Quoted

/-!
# Data of the wrong shape

What is said of a well-formed document whose data is not what the reader asks for. The wording is
the same for every format but for the numerals of floating-point values.
-/

namespace SignatureLine

/-- What was met in a document. -/
inductive Found where
  | null
  | boolean (value : Bool)
  | integer (value : Int)
  | float (value : Binary64)
  | string (value : Text)
  | sequence
  | map
  deriving Repr, DecidableEq

/-- A word of a document between back quotes. -/
def backquoted (s : Text) : Text :=
  "`".toList ++ s ++ "`".toList

def Found.describe (style : FloatStyle) : Found → Text
  | .null => "null".toList
  | .boolean true => "boolean ".toList ++ backquoted "true".toList
  | .boolean false => "boolean ".toList ++ backquoted "false".toList
  | .integer n => "integer ".toList ++ backquoted (Text.ofInt n)
  | .float x => "floating point ".toList ++ backquoted (style.write x)
  | .string s => "string ".toList ++ Text.quoted s
  | .sequence => "sequence".toList
  | .map => "map".toList

/-- How data differs from what is asked for. -/
inductive Mismatch where
  | wrongType (found : Found) (expected : Text)
  /-- A sequence that ends too early. -/
  | wrongLength (length : Nat) (expected : Text)
  /-- A name that is none of the known ones. -/
  | unknownVariant (name : Text) (known : List Text)
  | missingField (name : Text)
  | duplicateField (name : Text)
  deriving Repr, DecidableEq

namespace Mismatch

/-- The words for a choice between names. -/
def alternatives (known : List Text) : Text :=
  match known with
  | [] => []
  | [a] => backquoted a
  | [a, b] => backquoted a ++ " or ".toList ++ backquoted b
  | _ => "one of ".toList ++ (", ".toList).intercalate (known.map backquoted)

def message (style : FloatStyle) : Mismatch → Text
  | .wrongType found expected =>
      "invalid type: ".toList ++ found.describe style ++ ", expected ".toList ++ expected
  | .wrongLength length expected =>
      "invalid length ".toList ++ Text.ofNat length ++ ", expected ".toList ++ expected
  | .unknownVariant name known =>
      "unknown variant ".toList ++ backquoted name ++ ", expected ".toList ++ alternatives known
  | .missingField name => "missing field ".toList ++ backquoted name
  | .duplicateField name => "duplicate field ".toList ++ backquoted name

end Mismatch

end SignatureLine
