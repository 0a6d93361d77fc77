import SignatureLine.Text.Basic

/-!
# Digits

Numerals as texts: writing naturals and integers in decimal and in hexadecimal, and reading
digits.
-/

namespace SignatureLine.Text

def ofNat (n : Nat) : Text :=
  Nat.toDigits 10 n

/-- The decimal numeral of an integer, with a minus sign if it is negative. -/
def ofInt : Int → Text
  | .ofNat n => ofNat n
  | .negSucc n => '-' :: ofNat (n + 1)

/-- The hexadecimal numeral of a natural number, in lower case. -/
def hex (n : Nat) : Text :=
  Nat.toDigits 16 n

/-- The value of a hexadecimal digit of either case. -/
def hexDigit? (c : Char) : Option Nat :=
  if '0' ≤ c ∧ c ≤ '9' then some (c.toNat - '0'.toNat)
  else if 'a' ≤ c ∧ c ≤ 'f' then some (c.toNat - 'a'.toNat + 10)
  else if 'A' ≤ c ∧ c ≤ 'F' then some (c.toNat - 'A'.toNat + 10)
  else none

def isDigit (c : Char) : Bool :=
  '0' ≤ c && c ≤ '9'

/-- The value of a numeral whose characters are digits in the given base. -/
def numeral (base : Nat) (s : Text) : Nat :=
  s.foldl (fun n c => n * base + (hexDigit? c).getD 0) 0

end SignatureLine.Text
