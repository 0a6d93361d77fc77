import SignatureLine.Text.Split

/-!
# Words of a line

The two ways of cutting a line into tokens, and a parameter into words.
-/

namespace SignatureLine

/-- What separates the tokens of a line. -/
inductive WhitespaceMode where
  /-- Every single space does, so that two adjacent spaces enclose an empty token. -/
  | literal
  /-- Runs of spaces and tabs do, and those at the ends of the line are ignored. -/
  | collapse
  deriving Repr, DecidableEq

namespace WhitespaceMode

/-- All modes, in the order in which messages list them. -/
def all : List WhitespaceMode :=
  [.literal, .collapse]

def name : WhitespaceMode → Text
  | .literal => "literal".toList
  | .collapse => "collapse".toList

def ofName? (s : Text) : Option WhitespaceMode :=
  all.find? (·.name == s)

/-- The tokens of a line. In literal mode empty tokens count, save those at the end. -/
def tokens : WhitespaceMode → Text → List Text
  | .literal, s => dropEndWhile List.isEmpty (Text.splitOn [' '] s)
  | .collapse, s =>
      let trimmed := Text.trimBlanks s
      if trimmed.isEmpty then [] else Text.splitBlankRuns trimmed

/-- The words of one parameter; none of them is empty. -/
def words : WhitespaceMode → Text → List Text
  | .literal, s => Text.splitByDelimiters s [[' ']]
  | .collapse, s => (Text.splitBlankRuns s).filter (!·.isEmpty)

end WhitespaceMode

end SignatureLine
