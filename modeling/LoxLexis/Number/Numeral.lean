import LoxLexis.Number.Decimal
import LoxLexis.Text.Digit

/-!
# Reading numbers

A numeral is an optional sign, then a word for infinity or for what is not a number, or decimal
digits with an optional point among them and an optional exponent.  Blanks may stand around it,
underscores between its digits, and its digits may belong to any script.

## Main definitions

* `Numeral` — the parts of a decimal numeral
* `Numeral.magnitude?` — its magnitude, correctly rounded
* `Binary64.ofText?` — the double a text denotes, `none` for text that is no numeral

## Design notes

Reading goes through three texts: the ASCII counterpart of the given one without blanks at its
ends, that text without underscores, and the parts of the numeral in it.  A numeral needs a digit
before the exponent, on either side of the point.
-/

namespace LoxLexis

namespace Text

/-- A text without its underscores, each of which has to stand between two digits; the flag tells
whether the character before the text is a digit. -/
def ungroupedAfter (afterDigit : Bool) : Text → Option Text
  | [] => some []
  | c :: rest =>
    if c = '_' then
      if afterDigit && rest.head?.any Char.isDigit then ungroupedAfter false rest else none
    else (ungroupedAfter c.isDigit rest).map (c :: ·)

/-- A text without its underscores, each of which has to stand between two digits. -/
def ungrouped? (t : Text) : Option Text := ungroupedAfter false t

/-- A sign at the front of a text and what follows it; the flag is set for a minus sign. -/
def splitSign : Text → Bool × Text
  | '-' :: rest => (true, rest)
  | '+' :: rest => (false, rest)
  | t => (false, t)

/-- The natural number that ASCII digits denote. -/
def toNat (digits : Text) : Nat := Nat.ofDigitChars 10 digits 0

end Text

/-- The parts of a decimal numeral without its sign. -/
structure Numeral where
  /-- The digits before the point. -/
  whole : Text
  /-- The digits after the point. -/
  fraction : Text
  /-- The power of ten that multiplies them. -/
  exponent : Int
  deriving DecidableEq

namespace Numeral

/-- The number a numeral denotes. -/
def toDecimal (n : Numeral) : Decimal where
  digits := Text.toNat (n.whole ++ n.fraction)
  exponent := n.exponent - n.fraction.length

/-- The magnitude nearest to the number a numeral denotes, `none` on overflow. -/
def magnitude? (n : Numeral) : Option Magnitude := n.toDecimal.magnitude?

/-- The exponent a text consists of: nothing, or the letter e and an integer. -/
def exponent? : Text → Option Int
  | [] => some 0
  | c :: rest =>
    if c = 'e' ∨ c = 'E' then
      let (negative, digits) := Text.splitSign rest
      if !digits.isEmpty && digits.all Char.isDigit then
        some (if negative then -(Text.toNat digits : Int) else Text.toNat digits)
      else none
    else none

/-- The text after the point that may begin it. -/
def afterPoint? : Text → Option Text
  | '.' :: rest => some rest
  | _ => none

/-- The parts of the numeral a text consists of. -/
def ofText? (t : Text) : Option Numeral :=
  let whole := t.takeWhile Char.isDigit
  let rest := t.dropWhile Char.isDigit
  let (fraction, rest) :=
    match afterPoint? rest with
    | some rest => (rest.takeWhile Char.isDigit, rest.dropWhile Char.isDigit)
    | none => ([], rest)
  -- The digits may be missing on one side of the point, but not on both.
  if whole.isEmpty && fraction.isEmpty then none
  else (exponent? rest).map fun exponent => { whole, fraction, exponent }

end Numeral

namespace Binary64

/-- The double that a text without blanks and underscores denotes. -/
def ofPlainText? (t : Text) : Option Binary64 :=
  let (negative, rest) := Text.splitSign t
  let word := rest.map Char.toLower
  if word = "inf".toList ∨ word = "infinity".toList then some (.infinite negative)
  else if word = "nan".toList then some .nan
  else (Numeral.ofText? rest).map fun n => ofMagnitude? negative n.magnitude?

/-- The double that a text denotes; `none` when it is no numeral. -/
def ofText? (t : Text) : Option Binary64 :=
  (Text.ungrouped? (Text.trimmed (t.map Text.toAscii))).bind ofPlainText?

end Binary64

end LoxLexis
