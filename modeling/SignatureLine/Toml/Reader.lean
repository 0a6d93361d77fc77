import SignatureLine.Text.Digits

/-!
# Readers

A reader takes a beginning of a text and gives a result and the rest, or fails. As a document is
either accepted as a whole or not at all, a failure carries no reason.
-/

namespace SignatureLine.Toml

/-- A reader of a beginning of a text. -/
abbrev Reader (α : Type) := StateT Text Option α

namespace Reader

variable {α : Type}

/-- The next character, which stays in the text. -/
def peek? : Reader (Option Char) :=
  fun s => some (s.head?, s)

def next : Reader Char
  | [] => none
  | c :: s => some (c, s)

def satisfy (p : Char → Bool) : Reader Char := do
  let c ← next
  guard (p c)
  return c

def accept (ch : Char) : Reader Unit := do
  guard ((← next) == ch)

def word (w : Text) : Reader Unit :=
  fun s => if w.isPrefixOf s then some ((), s.drop w.length) else none

/-- Takes the longest beginning whose characters satisfy `p`. -/
def takeWhile (p : Char → Bool) : Reader Text :=
  fun s => some (s.takeWhile p, s.dropWhile p)

/-- As `takeWhile`, but takes at least one character. -/
def takeWhile1 (p : Char → Bool) : Reader Text := do
  let s ← takeWhile p
  guard (!s.isEmpty)
  return s

/-- Takes exactly `n` decimal digits and gives the number. -/
def digits (n : Nat) : Reader Nat := fun s =>
  let ds := s.take n
  if ds.length = n ∧ ds.all Text.isDigit then some (Text.numeral 10 ds, s.drop n) else none

/-- Takes a given character if it comes next, and tells whether it did. -/
def tryAccept (ch : Char) : Reader Bool := do
  return (← optional (accept ch)).isSome

def atEnd : Reader Bool :=
  fun s => some (s.isEmpty, s)

/-- Runs a reader that repeats a step, each of which takes at least one character: the length of the
text bounds the number of steps. -/
def repeating (r : Nat → Reader α) : Reader α :=
  fun s => r (s.length + 1) s

end Reader

/-! ## Blanks, comments and line ends -/

open Reader

def blanks : Reader Unit := do
  let _ ← takeWhile Text.isBlank

/-- Takes the end of a line: a line feed, alone or after a carriage return. -/
def newline : Reader Unit := do
  let _ ← tryAccept '\r'
  accept '\n'

/-- What may stand in a comment: no control character but the tab. -/
def isCommentChar (c : Char) : Bool :=
  c == '\t' || (0x20 ≤ c.toNat && c.toNat != 0x7F)

/-- Takes a comment, up to the end of its line. -/
def comment : Reader Unit := do
  accept '#'
  let _ ← takeWhile isCommentChar

/-- Takes the rest of a line on which nothing but a comment may follow. -/
def lineEnd : Reader Unit := do
  blanks
  let _ ← optional comment
  if !(← atEnd) then newline

/-- Takes blanks, comments and line ends between the elements of an array. -/
def gap : Reader Unit :=
  repeating steps
where
  steps : Nat → Reader Unit
    | 0 => failure
    | n + 1 => do
        blanks
        match ← peek? with
        | some '#' => do comment; newline; steps n
        | some '\n' | some '\r' => do newline; steps n
        | _ => pure ()

end SignatureLine.Toml
