import SignatureLine.Json.Number

/-!
# JSON tokens

A text is read token by token up to the first place where it stops being JSON, which the token
`broken` marks.
-/

namespace SignatureLine.Json

inductive Token where
  | openObject
  | closeObject
  | openArray
  | closeArray
  | colon
  | comma
  | null
  | boolean (value : Bool)
  /-- A numeral; one beyond the range of numbers has no value. -/
  | number (value : Option Number)
  /-- A string; one with half of a surrogate pair stands for no text. -/
  | string (value : Option Text)
  /-- No token starts here. -/
  | broken
  deriving Repr, DecidableEq

/-- The white space between tokens. -/
def isSpace (c : Char) : Bool :=
  c == ' ' || c == '\n' || c == '\t' || c == '\r'

/-! ## Strings -/

/-- What one character or escape in a string stands for. -/
inductive StringUnit where
  | char (c : Char)
  /-- A code unit that was written as four hexadecimal digits. -/
  | code (n : Nat)
  deriving Repr, DecidableEq

/-- The character of an escape of one letter. -/
def unescape? : Char → Option Char
  | '"' => some '"'
  | '\\' => some '\\'
  | '/' => some '/'
  | 'b' => some '\x08'
  | 'f' => some '\x0c'
  | 'n' => some '\n'
  | 'r' => some '\r'
  | 't' => some '\t'
  | _ => none

/-- The value of four hexadecimal digits. -/
def hex4? (a b c d : Char) : Option Nat := do
  return (((← Text.hexDigit? a) * 16 + (← Text.hexDigit? b)) * 16 + (← Text.hexDigit? c)) * 16 +
    (← Text.hexDigit? d)

/-- Reads a string after its opening quote, up to and with the closing one. -/
def stringUnits? : Text → Option (List StringUnit × Text)
  | [] => none
  | '"' :: s => some ([], s)
  | '\\' :: 'u' :: a :: b :: c :: d :: s => do
      let n ← hex4? a b c d
      let (units, rest) ← stringUnits? s
      return (.code n :: units, rest)
  | '\\' :: e :: s => do
      let c ← unescape? e
      let (units, rest) ← stringUnits? s
      return (.char c :: units, rest)
  | c :: s =>
      if c.toNat < 0x20 then none
      else (stringUnits? s).map fun (units, rest) => (.char c :: units, rest)

/-- The text that units stand for. The two halves of a surrogate pair stand next to each other, and
none stands alone. -/
def textOfUnits? : List StringUnit → Option Text
  | [] => some []
  | .char c :: units => (textOfUnits? units).map (c :: ·)
  | .code high :: .code low :: units =>
      if 0xD800 ≤ high ∧ high < 0xDC00 then
        if 0xDC00 ≤ low ∧ low < 0xE000 then
          (textOfUnits? units).map
            (Char.ofNat (0x10000 + (high - 0xD800) * 0x400 + (low - 0xDC00)) :: ·)
        else none
      else if 0xDC00 ≤ high ∧ high < 0xE000 then none
      else (textOfUnits? (.code low :: units)).map (Char.ofNat high :: ·)
  | .code n :: units =>
      if 0xD800 ≤ n ∧ n < 0xE000 then none else (textOfUnits? units).map (Char.ofNat n :: ·)

/-! ## Tokens -/

/-- Reads the token that starts with `c`. -/
def Token.next? (c : Char) (s : Text) : Option (Token × Text) :=
  match c with
  | '\x7b' => some (.openObject, s)
  | '\x7d' => some (.closeObject, s)
  | '[' => some (.openArray, s)
  | ']' => some (.closeArray, s)
  | ':' => some (.colon, s)
  | ',' => some (.comma, s)
  | '"' => (stringUnits? s).map fun (units, rest) => (.string (textOfUnits? units), rest)
  | 'n' => (after? "ull".toList).map (.null, ·)
  | 't' => (after? "rue".toList).map (.boolean true, ·)
  | 'f' => (after? "alse".toList).map (.boolean false, ·)
  | c => (Number.read? (c :: s)).map fun (value, rest) => (.number value, rest)
where
  /-- The text after a given beginning. -/
  after? (word : Text) : Option Text :=
    if word.isPrefixOf s then some (s.drop word.length) else none

/-- The first `limit` tokens of a text. -/
def Token.scanUpTo : Nat → Text → List Token
  | 0, _ => []
  | limit + 1, s =>
      match s.dropWhile isSpace with
      | [] => []
      | c :: rest =>
          match next? c rest with
          | none => [.broken]
          | some (token, rest) => token :: scanUpTo limit rest

/-- The tokens of a text. A token has at least one character, so the length bounds their number. -/
def Token.scan (s : Text) : List Token :=
  scanUpTo s.length s

end SignatureLine.Json
