import SignatureLine.Number.Binary64

/-!
# Shortest decimals

The decimal with the fewest digits that a floating-point value is the nearest to, and of those the
one nearest to the value.
-/

namespace SignatureLine

/-- The number `digits * 10 ^ exponent`. -/
structure Decimal where
  digits : Nat
  exponent : Int
  deriving Repr, DecidableEq

/-- Which of two equally near decimals is taken. -/
inductive DecimalTie where
  | even
  | up
  deriving Repr, DecidableEq

namespace Decimal

/-- The numbers that round to one value, in quarters of its last place: its own place, the ends of
the interval, whether these count, and the last place as a power of two. -/
structure Neighbourhood where
  centre : Nat
  low : Nat
  high : Nat
  closed : Bool
  exponent : Int

/-- The neighbourhood of `mantissa * 2 ^ exponent`. Below a power of two the next value is half as
far as above it. -/
def Neighbourhood.of (mantissa : Nat) (exponent : Int) : Neighbourhood where
  centre := 4 * mantissa
  low := if mantissa = Nat.pow 2 52 ∧ -1074 < exponent then 4 * mantissa - 1 else 4 * mantissa - 2
  high := 4 * mantissa + 2
  closed := mantissa % 2 == 0
  exponent := exponent - 2

/-- The multiple of `10 ^ place` that lies in the neighbourhood and is nearest to its centre. -/
def onGrid? (tie : DecimalTie) (n : Neighbourhood) (place : Int) : Option Nat :=
  let scale := powerOrOne 2 n.exponent * powerOrOne 10 (-place)
  let unit := powerOrOne 2 (-n.exponent) * powerOrOne 10 place
  let centre := n.centre * scale
  let below := centre / unit
  let above := below + 1
  let belowFits := n.low * scale < below * unit || (n.closed && n.low * scale == below * unit)
  let aboveFits := above * unit < n.high * scale || (n.closed && above * unit == n.high * scale)
  match belowFits, aboveFits with
  | false, false => none
  | true, false => some below
  | false, true => some above
  | true, true =>
      let down := centre - below * unit
      let up := above * unit - centre
      if down < up then some below
      else if up < down then some above
      else match tie with
        | .up => some above
        | .even => some (if below % 2 = 0 then below else above)

/-- The decimal on the first grid that has one in the neighbourhood, from `place` downwards over
`steps` grids. -/
def search (tie : DecimalTie) (n : Neighbourhood) : Nat → Int → Decimal
  | 0, place => ⟨0, place⟩
  | steps + 1, place =>
      match onGrid? tie n place with
      | some digits => ⟨digits, place⟩
      | none => search tie n steps (place - 1)

/-- The shortest decimal of the positive value `mantissa * 2 ^ exponent`. The search starts at a
power of ten above the value; as 17 digits tell all values apart, it ends within 25 steps. -/
def shortest (tie : DecimalTie) (mantissa : Nat) (exponent : Int) : Decimal :=
  search tie (Neighbourhood.of mantissa exponent) 25
    (((mantissa.log2 : Int) + exponent) * 30103 / 100000 + 2)

end Decimal

end SignatureLine
