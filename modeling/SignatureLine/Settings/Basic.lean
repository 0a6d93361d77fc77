import SignatureLine.Signature.Parser

/-!
# Settings

What a settings file says about parsing, and the parser it makes.
-/

namespace SignatureLine

/-- The parser section of a settings file; what it leaves open is `none`. -/
structure ParserSettings where
  whitespace : Option WhitespaceMode := none
  strictArguments : Option Bool := none
  deriving Repr, DecidableEq

structure Settings where
  parser : Option ParserSettings := none
  deriving Repr, DecidableEq

namespace Settings

/-- The whitespace mode, literal unless the file says otherwise. -/
def whitespace (s : Settings) : WhitespaceMode :=
  (s.parser.bind (·.whitespace)).getD .literal

/-- Whether parsing is strict, which it is only if the file says so. -/
def strictArguments (s : Settings) : Bool :=
  (s.parser.bind (·.strictArguments)).getD false

end Settings

def Parser.ofSettings (s : Settings) : Parser where
  whitespace := s.whitespace
  strict := s.strictArguments

@[simp]
theorem Parser.ofSettings_default : Parser.ofSettings {} = {} := rfl

end SignatureLine
