import SignatureLine.Text.Basic

/-!
# Splitting

Splitting a text at the occurrences of one delimiter, at those of several delimiters one after the
other, and at runs of blanks.
-/

namespace SignatureLine.Text

/-- The pieces of a text between the occurrences of `d`, when its first `skip` characters belong to
an occurrence met before. -/
def splitFrom (d : Text) : Nat → Text → List Text
  | _, [] => [[]]
  | skip + 1, _ :: s => splitFrom d skip s
  | 0, c :: s =>
      if d.isPrefixOf (c :: s) then [] :: splitFrom d (d.length - 1) s
      else (splitFrom d 0 s).modifyHead (c :: ·)

/-- The pieces of a text between the occurrences of a delimiter, which are taken from the left and
do not overlap. The empty delimiter occurs before each character and at the end. -/
def splitOn (d s : Text) : List Text :=
  match d with
  | [] => [] :: (s.map ([·]) ++ [[]])
  | _ :: _ => splitFrom d 0 s

/-- One pass of `splitByDelimiters`: every fragment is split, and empty pieces are dropped. -/
def splitPass (fragments : List Text) (d : Text) : List Text :=
  (fragments.flatMap (splitOn d)).filter (!·.isEmpty)

/-- The fragments of a text after splitting by each delimiter in turn. Without delimiters it is the
text itself, even an empty one. -/
def splitByDelimiters (s : Text) (ds : List Text) : List Text :=
  ds.foldl splitPass [s]

/-- The pieces of a text between its maximal runs of blanks; `inRun` tells whether the character
before the text is a blank. -/
def splitRunsFrom : Bool → Text → List Text
  | _, [] => [[]]
  | inRun, c :: s =>
      if isBlank c then
        if inRun then splitRunsFrom true s else [] :: splitRunsFrom true s
      else (splitRunsFrom false s).modifyHead (c :: ·)

/-- The pieces of a text between its maximal runs of blanks. A run at either end leaves an empty
piece there. -/
def splitBlankRuns (s : Text) : List Text :=
  splitRunsFrom false s

end SignatureLine.Text
