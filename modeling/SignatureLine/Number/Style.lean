import SignatureLine.Number.Shortest

/-!
# Floating-point numerals

A `FloatStyle` holds the decisions of one format about the text of a floating-point value; the
digits are always the shortest ones.
-/

namespace SignatureLine

/-- How a format writes floating-point values. -/
structure FloatStyle where
  /-- Which of two equally near shortest decimals is written. -/
  tie : DecimalTie
  /-- Whether a value is written without an exponent, by the place of its point relative to its
  first digit. -/
  positional : Int → Bool
  notANumber : Text
  infinity : Text

namespace FloatStyle

/-- The decimal without an exponent, and always with a point. -/
def writePositional (ds : Text) (exponent : Int) : Text :=
  let point := ds.length + exponent
  if 0 ≤ exponent then ds ++ List.replicate exponent.toNat '0' ++ ['.', '0']
  else if 0 < point then ds.take point.toNat ++ '.' :: ds.drop point.toNat
  else ['0', '.'] ++ List.replicate (-point).toNat '0' ++ ds

/-- An exponent, which always has a sign. -/
def writePower (power : Int) : Text :=
  if power < 0 then Text.ofInt power else '+' :: Text.ofInt power

/-- The decimal with one digit before the point and an exponent. -/
def writeScientific (ds : Text) (exponent : Int) : Text :=
  let power := writePower (ds.length + exponent - 1)
  match ds with
  | [] => []
  | [d] => d :: 'e' :: power
  | d :: rest => d :: '.' :: rest ++ 'e' :: power

def write (style : FloatStyle) : Binary64 → Text
  | .nan => style.notANumber
  | .infinity negative => sign negative style.infinity
  | .finite negative 0 _ => sign negative ['0', '.', '0']
  | .finite negative mantissa exponent =>
      let d := Decimal.shortest style.tie mantissa exponent
      let ds := Text.ofNat d.digits
      sign negative
        (if style.positional (ds.length + d.exponent) then writePositional ds d.exponent
        else writeScientific ds d.exponent)
where
  sign (negative : Bool) (s : Text) : Text :=
    if negative then '-' :: s else s

end FloatStyle

end SignatureLine
