import LoxLexis.Text.Printable

/-!
# Quoted text

A text is quoted so that any text fits on one line of printable characters and can be told apart
from every other.  It stands between two marks; the mark, the backslash and everything that is
not printable are written with a backslash.

## Main definitions

* `Text.mark` — the quotation mark a text is put between
* `Text.escaped` — how one character is written between marks
* `Text.quoted` — the quoted form of a text

## Design notes

The apostrophe is the mark, unless the text holds an apostrophe and no double quote; so a mark is
only escaped in a text that holds both.
-/

namespace LoxLexis

namespace Text

def apostrophe : Char := '\x27'

def doubleQuote : Char := '\x22'

/-- The mark a text is quoted with: the double quote when the text holds an apostrophe and no
double quote, else the apostrophe. -/
def mark (t : Text) : Char :=
  if t.contains apostrophe && !t.contains doubleQuote then doubleQuote else apostrophe

/-- The numeric escape of a character, in the shortest of the three forms that holds its code
point. -/
def escapedCode (c : Char) : Text :=
  if c.toNat < 0x100 then '\\' :: 'x' :: hexadecimal 2 c.toNat
  else if c.toNat < 0x10000 then '\\' :: 'u' :: hexadecimal 4 c.toNat
  else '\\' :: 'U' :: hexadecimal 8 c.toNat

/-- A character as it is written between two marks. -/
def escaped (mark c : Char) : Text :=
  if c = mark ∨ c = '\\' then ['\\', c]
  else if c = '\n' then ['\\', 'n']
  else if c = '\r' then ['\\', 'r']
  else if c = '\t' then ['\\', 't']
  else if isPrintable c then [c]
  else escapedCode c

/-- The quoted form of a text. -/
def quoted (t : Text) : Text :=
  let m := mark t
  m :: (t.flatMap (escaped m) ++ [m])

end Text

end LoxLexis
