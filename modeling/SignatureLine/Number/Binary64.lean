import SignatureLine.Text.Digits

/-!
# Binary floating point

The 64-bit format as exact values: a finite number is a mantissa times a power of two. Every
operation rounds the exact result once, to the nearest number of the format, a tie to the even
mantissa.
-/

namespace SignatureLine

/-- A floating-point value. In the numbers that this library builds a finite value has a mantissa
below `2 ^ 53` and an exponent of at least `-1074`, and the mantissa is at least `2 ^ 52` unless the
exponent is the least one. -/
inductive Binary64 where
  | nan
  | infinity (negative : Bool)
  | finite (negative : Bool) (mantissa : Nat) (exponent : Int)
  deriving Repr, DecidableEq

/-- The power of a base as a factor of a numerator: 1 if the exponent is negative, and the power
belongs to the denominator. -/
def powerOrOne (base : Nat) (exponent : Int) : Nat :=
  Nat.pow base exponent.toNat

namespace Binary64

/-- The natural number nearest to `num / den`, a tie going to the even one. -/
def roundDiv (num den : Nat) : Nat :=
  let q := num / den
  let r := num % den
  if 2 * r < den then q
  else if den < 2 * r then q + 1
  else q + q % 2

/-- The greatest `k` with `2 ^ k ≤ num / den`, for positive `num` and `den`. -/
def floorLog2 (num den : Nat) : Int :=
  let k : Int := (num.log2 : Int) - den.log2
  if den * powerOrOne 2 k ≤ num * powerOrOne 2 (-k) then k else k - 1

def zero (negative : Bool) : Binary64 :=
  .finite negative 0 (-1074)

/-- The value nearest to `num / den`. -/
def ofRatio (negative : Bool) (num den : Nat) : Binary64 :=
  if num = 0 then zero negative
  else
    let e := max (floorLog2 num den - 52) (-1074)
    let m := roundDiv (num * powerOrOne 2 (-e)) (den * powerOrOne 2 e)
    let (m, e) := if m = Nat.pow 2 53 then (Nat.pow 2 52, e + 1) else (m, e)
    if 971 < e then .infinity negative else .finite negative m e

/-- The value nearest to `digits * 10 ^ exponent`. Beyond 400 places the result is known without
the power. -/
def ofDecimal (negative : Bool) (digits : Nat) (exponent : Int) : Binary64 :=
  let places := (Text.ofNat digits).length + exponent
  if digits = 0 ∨ places < -400 then zero negative
  else if 400 < places then .infinity negative
  else ofRatio negative (digits * powerOrOne 10 exponent) (powerOrOne 10 (-exponent))

def neg : Binary64 → Binary64
  | .nan => .nan
  | .infinity s => .infinity !s
  | .finite s m e => .finite (!s) m e

/-- The product of a finite value and `10 ^ n`, the power being rounded to the format first. -/
def timesPowerOfTen (x : Binary64) (n : Nat) : Binary64 :=
  match x, ofDecimal false 1 n with
  | .finite s m e, .finite _ m' e' =>
      ofRatio s (m * m' * powerOrOne 2 (e + e')) (powerOrOne 2 (-(e + e')))
  | .finite s .., .infinity _ => .infinity s
  | y, _ => y

/-- The quotient of a finite value and `10 ^ n`, the power being rounded to the format first. -/
def overPowerOfTen (x : Binary64) (n : Nat) : Binary64 :=
  match x, ofDecimal false 1 n with
  | .finite s m e, .finite _ m' e' =>
      ofRatio s (m * powerOrOne 2 (e - e')) (m' * powerOrOne 2 (e' - e))
  | .finite s .., .infinity _ => zero s
  | y, _ => y

def isZero : Binary64 → Bool
  | .finite _ m _ => m == 0
  | _ => false

def isInfinite : Binary64 → Bool
  | .infinity _ => true
  | _ => false

end Binary64

end SignatureLine
