import SignatureLine.Signature.Head
import SignatureLine.Signature.Parameters

/-!
# Parsing a signature

`Parser.parseLogged` reads one line into a `Signature` or says why it is none, together with the
events on the way; `Parser.parse` is its result alone.
-/

namespace SignatureLine

structure Parser where
  /-- What separates the tokens of a line. -/
  whitespace : WhitespaceMode := .literal
  /-- Whether a token of the parameter list without type and name is an error. A parser that is not
  strict drops it. -/
  strict : Bool := false
  deriving Repr, DecidableEq

namespace Parser

/-- A computation that emits events and may fail. -/
abbrev Parse (α : Type) :=
  ExceptT SignatureError (Logged SignatureEvent) α

def report (event : SignatureEvent) : Parse Unit :=
  ExceptT.lift (Logged.emit event)

/-- Reads the arguments of `line` from the tokens of its parameter list, first to last. -/
def readArguments (p : Parser) (line : Text) : List Text → Parse (List Argument)
  | [] => pure []
  | token :: rest =>
      match p.whitespace.argument? token with
      | some argument => do
          return argument :: (← readArguments p line rest)
      | none =>
          if p.strict then throw (.malformedArgument line token)
          else do
            report (.droppedArgument token line)
            readArguments p line rest

def readHead (p : Parser) (line : Text) : Parse Head :=
  match Head.read (p.whitespace.tokens line) with
  | .ok head => pure head
  | .error missing => throw (.malformedSignature line missing)

/-- Reads the head and then the arguments, and reports success. -/
def readSignature (p : Parser) (line : Text) : Parse Signature := do
  let head ← p.readHead line
  let arguments ← p.readArguments line (Text.parameterTokens (Text.parameterText line))
  report (.parsed head.methodName arguments.length)
  return ⟨line, head.modifier, head.returnType, head.methodName, arguments⟩

/-- The outcome of parsing a line and the events emitted. -/
def parseLogged (p : Parser) (line : Text) :
    Logged SignatureEvent (Except SignatureError Signature) :=
  (p.readSignature line).run

def parse (p : Parser) (line : Text) : Except SignatureError Signature :=
  (p.parseLogged line).value

/-- The outcomes of `times` parses, the first of `line` and each further one of the display of the
signature before. They end after the first error. -/
def parseRepeatedly (p : Parser) : Nat → Text → List (Except SignatureError Signature)
  | 0, _ => []
  | times + 1, line =>
      match p.parse line with
      | .ok s => .ok s :: parseRepeatedly p times s.display
      | .error e => [.error e]

end Parser

/-- Parses a line with the default parser: literal and not strict. -/
def Signature.ofLine (line : Text) : Except SignatureError Signature :=
  ({} : Parser).parse line

end SignatureLine
