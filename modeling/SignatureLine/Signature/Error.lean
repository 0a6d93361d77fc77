import SignatureLine.Signature.Basic
import SignatureLine.Log

/-!
# What parsing reports

The errors of reading a signature, the events emitted on the way, and their texts.
-/

namespace SignatureLine

/-- A part that every signature has. -/
inductive Component where
  | returnType
  | methodName
  deriving Repr, DecidableEq

def Component.describe : Component → Text
  | .returnType => "return type".toList
  | .methodName => "method name".toList

/-- Why a line is not accepted as a signature. -/
inductive SignatureError where
  /-- The line has too few tokens to hold the component. -/
  | malformedSignature (signature : Text) (missing : Component)
  /-- A piece of the parameter list lacks a type or a name. -/
  | malformedArgument (signature token : Text)
  deriving Repr, DecidableEq

def SignatureError.message : SignatureError → Text
  | .malformedSignature signature missing =>
      "malformed signature '".toList ++ signature ++ "': missing ".toList ++ missing.describe
  | .malformedArgument signature token =>
      "malformed argument '".toList ++ token ++ "' in signature '".toList ++ signature ++ ['\'']

/-- A keyword that is no access modifier. -/
structure UnknownModifier where
  keyword : Text
  deriving Repr, DecidableEq

def UnknownModifier.message (e : UnknownModifier) : Text :=
  "unknown access modifier '".toList ++ e.keyword ++ ['\'']

/-- The modifier with this keyword, or the error that names the keyword. -/
def AccessModifier.ofKeyword (s : Text) : Except UnknownModifier AccessModifier :=
  match ofKeyword? s with
  | some m => .ok m
  | none => .error ⟨s⟩

/-- What parsing tells about its progress. -/
inductive SignatureEvent where
  /-- A piece of the parameter list was left out, for want of a type or a name. -/
  | droppedArgument (token signature : Text)
  /-- The line was accepted. -/
  | parsed (methodName : Text) (argumentCount : Nat)
  deriving Repr, DecidableEq

namespace SignatureEvent

def level : SignatureEvent → Level
  | .droppedArgument .. => .debug
  | .parsed .. => .trace

def message : SignatureEvent → Text
  | .droppedArgument .. => "dropping argument without type and name".toList
  | .parsed .. => "parsed signature".toList

end SignatureEvent

end SignatureLine
