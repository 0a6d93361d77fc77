import SignatureLine.Number.Binary64
import SignatureLine.Toml.Reader

/-!
# TOML numbers

Integers of 64 bits in four bases, and floating-point values.
-/

namespace SignatureLine.Toml

open Reader

/-- The longest beginning of digits that satisfy `p`, among them single underscores, each before a
digit; and the rest. The underscores are left out. -/
def spanDigits (p : Char → Bool) : Text → Text × Text
  | [] => ([], [])
  | [c] => if p c then ([c], []) else ([], [c])
  | c :: d :: s =>
      if p c || (c == '_' && p d) then
        let (ds, rest) := spanDigits p (d :: s)
        (if c == '_' then ds else c :: ds, rest)
      else ([], c :: d :: s)

/-- Takes digits that satisfy `p`, the first of which is no underscore. -/
def digitsWith (p : Char → Bool) : Reader Text := do
  match ← peek? with
  | some c => guard (p c)
  | none => failure
  fun s => some (spanDigits p s)

/-- Takes a sign if one comes next, and tells whether it is a minus. -/
def sign : Reader Bool := do
  if ← tryAccept '-' then return true
  let _ ← tryAccept '+'
  return false

/-- Takes decimal digits without a leading zero. -/
def decimalDigits : Reader Text := do
  if ← tryAccept '0' then return ['0']
  digitsWith Text.isDigit

/-- The integer, if it fits 64 bits. -/
def inRange (n : Int) : Reader Int := do
  let bound : Int := Nat.pow 2 63
  guard (-bound ≤ n ∧ n < bound)
  return n

/-- An integer whose base is named after a zero; it has no sign. -/
def basedInteger (letter : Char) (base : Nat) : Reader Int := do
  word ['0', letter]
  let ds ← digitsWith fun c => (Text.hexDigit? c).any (· < base)
  inRange (Text.numeral base ds)

def decimalInteger : Reader Int := do
  let negative ← sign
  let n : Int := Text.numeral 10 (← decimalDigits)
  inRange (if negative then -n else n)

def integer : Reader Int :=
  basedInteger 'x' 16 <|> basedInteger 'o' 8 <|> basedInteger 'b' 2 <|> decimalInteger

/-- The digits after the point. -/
def fraction : Reader Text := do
  accept '.'
  digitsWith Text.isDigit

def exponent : Reader Int := do
  accept 'e' <|> accept 'E'
  let negative ← sign
  let n : Int := Text.numeral 10 (← digitsWith Text.isDigit)
  return if negative then -n else n

/-- A numeral with a fraction, an exponent or both. One that rounds to positive infinity is
refused. -/
def decimalFloat : Reader Binary64 := do
  let negative ← sign
  let whole ← decimalDigits
  let fractional ← optional fraction
  let power ← optional exponent
  guard (fractional.isSome || power.isSome)
  let digits := whole ++ fractional.getD []
  let x := Binary64.ofDecimal negative (Text.numeral 10 digits)
    (power.getD 0 - (fractional.getD []).length)
  guard (x != .infinity false)
  return x

/-- Infinity or a value that is not a number, with a sign or without. -/
def specialFloat : Reader Binary64 := do
  let negative ← sign
  (do word "inf".toList; return .infinity negative) <|> (do word "nan".toList; return .nan)

def float : Reader Binary64 :=
  decimalFloat <|> specialFloat

end SignatureLine.Toml
