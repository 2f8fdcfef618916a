import LoxLexis.Number.Decimal
import LoxLexis.Text.Basic

/-!
# How a double is displayed

A double is displayed with the fewest digits that read back as the same double.  Where the first
digit has a place between ten-thousandths and `10¹⁵` the digits stand in their places and at least
one of them after the point; elsewhere the display has one digit before the point and an exponent.

## Main definitions

* `Decimal.leadingExponent` — the power of ten of a decimal's first digit
* `Decimal.isPositional` — whether the digits stand in their places
* `Decimal.display` — a decimal in positional or exponent form
* `Binary64.display` — the display of a double
-/

namespace LoxLexis

namespace Decimal

/-- The power of ten that the first digit of a decimal counts. -/
def leadingExponent (d : Decimal) : Int := d.ceilingExponent - 1

/-- The first digit counts a power of ten from `10⁻⁴` to `10¹⁵`. -/
def isPositional (d : Decimal) : Bool := -4 ≤ d.leadingExponent && d.leadingExponent < 16

/-- The digits of a decimal in their places, with at least one digit on each side of the point. -/
def positional (d : Decimal) : Text :=
  let ds := Text.ofNat d.digits
  match d.exponent with
  | .ofNat e => ds ++ List.replicate e '0' ++ ['.', '0']
  | .negSucc e =>
    -- With these zeros in front one digit at least is left of the point.
    let ds := List.replicate (e + 2 - ds.length) '0' ++ ds
    ds.take (ds.length - (e + 1)) ++ '.' :: ds.drop (ds.length - (e + 1))

/-- An exponent with its sign and at least two digits. -/
def exponentText (e : Int) : Text :=
  let ds := Text.ofNat e.natAbs
  (if e < 0 then '-' else '+') :: (List.replicate (2 - ds.length) '0' ++ ds)

/-- The first digit of a decimal, the others after a point, and the power of ten of the first. -/
def scientific (d : Decimal) : Text :=
  let ds := Text.ofNat d.digits
  let others := ds.drop 1
  ds.take 1 ++ (if others.isEmpty then [] else '.' :: others) ++
    'e' :: exponentText d.leadingExponent

/-- A decimal in positional form if its size allows, else in exponent form. -/
def display (d : Decimal) : Text := if d.isPositional then d.positional else d.scientific

end Decimal

def Magnitude.display (m : Magnitude) : Text :=
  if m.units = 0 then "0.0".toList else m.shortest.display

/-- The display of a double: a minus sign where it is negative, then its magnitude. -/
def Binary64.display : Binary64 → Text
  | .finite negative m => (if negative then ['-'] else []) ++ m.display
  | .infinite negative => (if negative then ['-'] else []) ++ "inf".toList
  | .nan => "nan".toList

end LoxLexis
