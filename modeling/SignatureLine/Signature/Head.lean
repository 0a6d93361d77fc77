import SignatureLine.Signature.Error
import SignatureLine.Text.Bytes

/-!
# The head of a signature

The part before the parameter list, `[modifier] returnType methodName(`, read from the tokens of the
line one at a time.
-/

namespace SignatureLine

/-- The positional part of a signature. -/
structure Head where
  modifier : Option AccessModifier
  returnType : Text
  methodName : Text
  deriving Repr, DecidableEq

namespace Head

/-- What the next token of the line is taken for. -/
inductive Expectation where
  | modifierOrType
  | type (modifier : AccessModifier)
  | name (modifier : Option AccessModifier) (returnType : Text)
  deriving Repr, DecidableEq

/-- The component that is missing when the tokens end here. -/
def Expectation.missing : Expectation → Component
  | .modifierOrType => .returnType
  | .type _ => .returnType
  | .name .. => .methodName

/-- Reads the tokens of a line in a given state. A first token that is a keyword counts as a
modifier only if `withModifier` allows it. The method name ends before the first parenthesis of its
token, and no token after it is looked at. -/
def readFrom (withModifier : Bool) : Expectation → List Text → Except Component Head
  | state, [] => .error state.missing
  | .modifierOrType, token :: rest =>
      match AccessModifier.ofKeyword? token, withModifier with
      | some m, true => readFrom withModifier (.type m) rest
      | _, _ => readFrom withModifier (.name none token) rest
  | .type m, token :: rest => readFrom withModifier (.name (some m) token) rest
  | .name modifier returnType, token :: _ =>
      .ok ⟨modifier, returnType, Text.trimUntil token '('⟩

/-- Reads the head of a line from its tokens. A lone token is never a modifier: it has to be the
return type. -/
def read (tokens : List Text) : Except Component Head :=
  readFrom (1 < tokens.length) .modifierOrType tokens

end Head

end SignatureLine
