import SignatureLine.Signature.Basic
import SignatureLine.Signature.Words
import SignatureLine.Text.Bytes
import SignatureLine.Text.Whitespace

/-!
# The parameter list

Where the parameter list of a line lies, and how it falls into tokens. The list is found in the
line itself, independently of the tokens of the head.
-/

namespace SignatureLine

namespace Text

/-- The byte positions between which the parameter list lies: after the first opening parenthesis
and before the first closing one, if they stand in this order. -/
def parameterSpan? (s : Text) : Option (Nat × Nat) :=
  match bytePosition? '(' s, bytePosition? ')' s with
  | some start, some stop => if start < stop then some (start + 1, stop) else none
  | _, _ => none

/-- The trimmed text of the parameter list; empty if there is no list. -/
def parameterText (s : Text) : Text :=
  match parameterSpan? s with
  | some (start, stop) => trim ((sliceBytes? start stop s).getD [])
  | none => []

/-- The trimmed pieces of a parameter list between its commas. Empty pieces are dropped before the
others are trimmed, so a piece of nothing but white space stays, as an empty token. -/
def parameterTokens (list : Text) : List Text :=
  (splitByDelimiters list [[',']]).map trim

end Text

/-- The argument that a token of the parameter list stands for: its first word is the type and its
second the name, and further words are ignored. -/
def WhitespaceMode.argument? (mode : WhitespaceMode) (token : Text) : Option Argument :=
  match mode.words token with
  | type :: name :: _ => some ⟨type, name⟩
  | _ => none

end SignatureLine
