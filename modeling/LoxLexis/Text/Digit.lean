import LoxLexis.Text.Basic

/-!
# Digits and blanks of all scripts

Numbers are written with the decimal digits of any script, and blank space around them may be any
Unicode white space.  This file gives each such character its ASCII counterpart, so that reading a
number is a matter of ASCII text alone.

## Main definitions

* `Text.digitZeros` — the zeros of the decimal digit rows outside ASCII
* `Text.digitValue?` — the value of a decimal digit of any script
* `Text.isBlank` — the ASCII characters that may stand around a number
* `Text.toAscii` — the ASCII counterpart of a digit or blank; other characters are kept

## Design notes

The digit rows are the characters of general category Nd, ten consecutive code points each, in
version 14 of the character database.  The information separators U+001C to U+001F are white
space to Unicode and yet are not blank here.
-/

namespace LoxLexis

namespace Text

/-- The code points of the digit zero in each script other than ASCII. -/
def digitZeros : List Nat := [
    0x0660, 0x06F0, 0x07C0, 0x0966, 0x09E6, 0x0A66, 0x0AE6, 0x0B66, 0x0BE6, 0x0C66, 0x0CE6, 0x0D66,
    0x0DE6, 0x0E50, 0x0ED0, 0x0F20, 0x1040, 0x1090, 0x17E0, 0x1810, 0x1946, 0x19D0, 0x1A80, 0x1A90,
    0x1B50, 0x1BB0, 0x1C40, 0x1C50, 0xA620, 0xA8D0, 0xA900, 0xA9D0, 0xA9F0, 0xAA50, 0xABF0, 0xFF10,
    0x104A0, 0x10D30, 0x11066, 0x110F0, 0x11136, 0x111D0, 0x112F0, 0x11450, 0x114D0, 0x11650,
    0x116C0, 0x11730, 0x118E0, 0x11950, 0x11C50, 0x11D50, 0x11DA0, 0x16A60, 0x16AC0, 0x16B50,
    0x1D7CE, 0x1D7D8, 0x1D7E2, 0x1D7EC, 0x1D7F6, 0x1E140, 0x1E2F0, 0x1E950, 0x1FBF0]

/-- The value of a decimal digit of any script. -/
def digitValue? (c : Char) : Option Nat :=
  if c.isDigit then some (c.toNat - 0x30)
  else (digitZeros.find? fun z => z ≤ c.toNat && c.toNat < z + 10).map fun z => c.toNat - z

/-- The ASCII characters that may stand around a number: space, tab, line feed, vertical tab, form
feed and carriage return. -/
def isBlank (c : Char) : Bool := c = ' ' || (9 ≤ c.toNat && c.toNat ≤ 13)

/-- White space outside ASCII. -/
def isWideBlank (c : Char) : Bool :=
  [0x85, 0xA0, 0x1680, 0x2028, 0x2029, 0x202F, 0x205F, 0x3000].contains c.toNat ||
    (0x2000 ≤ c.toNat && c.toNat ≤ 0x200A)

/-- The ASCII digit of a decimal digit, the space for white space outside ASCII, and every other
character itself. -/
def toAscii (c : Char) : Char :=
  if c.toNat < 0x80 then c
  else if isWideBlank c then ' '
  else (digitValue? c).elim c Nat.digitChar

theorem toAscii_of_lt {c : Char} (h : c.toNat < 0x80) : toAscii c = c := if_pos h

/-- A text without the blanks at its two ends. -/
def trimmed (t : Text) : Text :=
  ((t.dropWhile isBlank).reverse.dropWhile isBlank).reverse

end Text

end LoxLexis
