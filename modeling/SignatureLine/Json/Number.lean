import SignatureLine.Number.Binary64

/-!
# JSON numbers

A numeral is an integer if it has neither a fraction nor an exponent and fits 64 bits, and a
floating-point value otherwise. The value of the latter is computed in two roundings: that of the
digits that fit 64 bits, and that of one product or quotient with a power of ten.
-/

namespace SignatureLine.Json

inductive Number where
  | integer (n : Int)
  | float (x : Binary64)
  deriving Repr, DecidableEq

namespace Number

/-- Takes digits into `significand` as long as it stays below `2 ^ 64`. The result is the
significand, how many digits were taken, and how many were left. -/
def takeDigits (significand : Nat) : Text → Nat × Nat × Nat
  | [] => (significand, 0, 0)
  | d :: ds =>
      let next := significand * 10 + (d.toNat - '0'.toNat)
      if next < Nat.pow 2 64 then
        let (result, taken, left) := takeDigits next ds
        (result, taken + 1, left)
      else (significand, 0, ds.length + 1)

/-- A value divided by `10 ^ n`, in steps of at most 308 places. -/
def divideDown (x : Binary64) (n : Nat) : Binary64 :=
  if n ≤ 308 then x.overPowerOfTen n
  else if x.isZero then x
  else divideDown (x.overPowerOfTen 308) (n - 308)
termination_by n

/-- `significand * 10 ^ exponent`; `none` if it is beyond the range of the format. -/
def scale? (significand : Nat) (exponent : Int) : Option Binary64 :=
  let x := Binary64.ofDecimal false significand 0
  if exponent < 0 then some (divideDown x (-exponent).toNat)
  else if x.isZero then some x
  else if 308 < exponent then none
  else
    let y := x.timesPowerOfTen exponent.toNat
    if y.isInfinite then none else some y

/-- The greatest exponent that is computed with. -/
def exponentLimit : Nat := Nat.pow 2 31 - 1

/-- The magnitude of a numeral that is no integer: its digits before and after the point, and its
exponent. -/
def magnitude? (whole fraction : Text) (exponent : Int) : Option Binary64 :=
  let (significand, _, dropped) := takeDigits 0 whole
  let (significand, places, _) := takeDigits significand fraction
  if exponentLimit < exponent.natAbs then
    if significand = 0 ∨ exponent < 0 then some (Binary64.zero false) else none
  else scale? significand (dropped - places + exponent)

/-- The value of a numeral of the given sign: its digits before the point, those after it, and its
exponent. A number beyond the range of the format has none. -/
def ofParts? (negative : Bool) (whole : Text) (fraction : Text) (exponent : Option Int) :
    Option Number :=
  let n := Text.numeral 10 whole
  let isWhole := fraction.isEmpty && exponent.isNone
  if isWhole ∧ !negative ∧ n < Nat.pow 2 64 then some (.integer n)
  else if isWhole ∧ negative ∧ 0 < n ∧ n ≤ Nat.pow 2 63 then some (.integer (-n))
  else
    (magnitude? whole fraction (exponent.getD 0)).map fun x =>
      .float (if negative then x.neg else x)

/-- Splits off the leading digits; at least one is demanded. -/
def digits? (s : Text) : Option (Text × Text) :=
  match s.takeWhile Text.isDigit with
  | [] => none
  | ds => some (ds, s.dropWhile Text.isDigit)

/-- As `digits?`, but after a leading zero there is no further digit. -/
def unpadded? (s : Text) : Option (Text × Text) :=
  match digits? s with
  | some ('0' :: _ :: _, _) => none
  | result => result

/-- Reads the part after a point, if there is one. -/
def fraction? : Text → Option (Text × Text)
  | '.' :: s => digits? s
  | s => some ([], s)

/-- Splits off a minus sign, and tells whether there was one. -/
def splitMinus : Text → Bool × Text
  | '-' :: s => (true, s)
  | s => (false, s)

/-- Splits off a sign of either kind, and tells whether it was a minus. -/
def splitSign : Text → Bool × Text
  | '+' :: s => (false, s)
  | s => splitMinus s

/-- Reads the exponent, if there is one. -/
def exponent? : Text → Option (Option Int × Text)
  | [] => some (none, [])
  | c :: s =>
      if c = 'e' ∨ c = 'E' then do
        let (negative, s) := splitSign s
        let (ds, s) ← digits? s
        let n : Int := Text.numeral 10 ds
        return (some (if negative then -n else n), s)
      else some (none, c :: s)

/-- Reads a numeral at the start of a text. The outer `none` says that there is none, the inner one
that it is beyond the range of the format. -/
def read? (s : Text) : Option (Option Number × Text) := do
  let (negative, s) := splitMinus s
  let (whole, s) ← unpadded? s
  let (fraction, s) ← fraction? s
  let (exponent, s) ← exponent? s
  return (ofParts? negative whole fraction exponent, s)

end Number

end SignatureLine.Json
