import SignatureLine.Toml.Reader

/-!
# TOML strings

The four kinds of strings: basic ones with escapes and literal ones without, each on one line or on
several.
-/

namespace SignatureLine.Toml

open Reader

/-- The character of an escape of one letter. -/
def unescape? : Char → Option Char
  | 'b' => some '\x08'
  | 't' => some '\t'
  | 'n' => some '\n'
  | 'f' => some '\x0c'
  | 'r' => some '\r'
  | '"' => some '"'
  | '\\' => some '\\'
  | _ => none

/-- Takes `n` hexadecimal digits that name a character. -/
def codePoint (n : Nat) : Reader Char := fun s => do
  let ds := s.take n
  guard (ds.length = n ∧ ds.all fun c => (Text.hexDigit? c).isSome)
  let code := Text.numeral 16 ds
  guard code.isValidChar
  return (Char.ofNat code, s.drop n)

/-- Takes an escape after its backslash. -/
def escaped : Reader Char := do
  match ← next with
  | 'u' => codePoint 4
  | 'U' => codePoint 8
  | c => (unescape? c : Option Char)

/-- What may stand in a string: no control character but the tab. -/
def isStringChar (c : Char) : Bool :=
  isCommentChar c

/-- Takes the rest of a basic string on one line. -/
def basicRest : Nat → Reader Text
  | 0 => failure
  | n + 1 => do
      match ← next with
      | '"' => return []
      | '\\' => return (← escaped) :: (← basicRest n)
      | c => do
          guard (isStringChar c)
          return c :: (← basicRest n)

def basicString : Reader Text := do
  accept '"'
  repeating basicRest

def literalString : Reader Text := do
  accept '\''
  let s ← takeWhile fun c => isStringChar c && c != '\''
  accept '\''
  return s

/-- The text without the blanks and line ends at its start. -/
def dropBlankLines : Text → Text
  | ' ' :: s => dropBlankLines s
  | '\t' :: s => dropBlankLines s
  | '\n' :: s => dropBlankLines s
  | '\r' :: '\n' :: s => dropBlankLines s
  | s => s

/-- Takes what a backslash at the end of a line joins: the line end and all blanks and line ends
after it. -/
def joinedLines : Reader Unit := do
  blanks
  newline
  modify dropBlankLines

/-- Takes the rest of a string on several lines that `quote` delimits. Up to two quotes may stand
anywhere in it, also before the three that end it; a line end is always one line feed. -/
def multilineRest (quote : Char) (escapes : Bool) : Nat → Reader Text
  | 0 => failure
  | n + 1 => do
      let quotes ← takeWhile (· == quote)
      if 3 ≤ quotes.length then
        guard (quotes.length ≤ 5)
        return quotes.drop 3
      else
        match ← peek? with
        | some '\n' | some '\r' => do
            newline
            return quotes ++ '\n' :: (← multilineRest quote escapes n)
        | _ => do
            let c ← next
            if escapes && c == '\\' then
              match ← optional joinedLines with
              | some () => return quotes ++ (← multilineRest quote escapes n)
              | none => return quotes ++ (← escaped) :: (← multilineRest quote escapes n)
            else
              guard (isStringChar c)
              return quotes ++ c :: (← multilineRest quote escapes n)

/-- A string on several lines. A line end right after the opening quotes is left out. -/
def multilineString (quote : Char) (escapes : Bool) : Reader Text := do
  word [quote, quote, quote]
  let _ ← optional newline
  repeating (multilineRest quote escapes)

def anyString : Reader Text :=
  multilineString '"' true <|> basicString <|> multilineString '\'' false <|> literalString

end SignatureLine.Toml
