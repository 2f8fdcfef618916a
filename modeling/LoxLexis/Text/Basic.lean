/-!
# Texts and positions

Everything the library reads or writes is a `Text`, the list of its characters.  A position in a
text counts the code points before it, so positions, lengths and slices agree with what a reader
counts, and no encoding enters before the command line.

## Main definitions

* `Text` — a list of characters
* `Text.slice` — the characters between two positions, either of which may lie past the end
* `Text.lineFeeds` — how many line feeds a text holds
* `Text.ofNat`, `Text.ofInt` — a number written in decimal
* `Text.hexadecimal` — a number written in a fixed number of hexadecimal digits
* `Text.ofLines` — lines put together

## Design notes

A character is a Unicode scalar value.  A sequence of code points that holds a lone surrogate is not a
text here, although the words of a command line may come as one elsewhere; nothing in the library is
about such sequences.
-/

namespace LoxLexis

/-- A text, as the list of its code points. -/
abbrev Text := List Char

namespace Text

/-- The characters from position `first` up to, but not including, position `past`.  Positions
past the end are moved back to it, and the slice is empty when `past ≤ first`. -/
def slice (t : Text) (first past : Nat) : Text := (t.drop first).take (past - first)

/-- The number of line feeds in a text. -/
def lineFeeds (t : Text) : Nat := t.count '\n'

@[simp] theorem lineFeeds_nil : lineFeeds [] = 0 := rfl

@[simp] theorem lineFeeds_append (t u : Text) :
    lineFeeds (t ++ u) = lineFeeds t + lineFeeds u :=
  List.count_append

theorem lineFeeds_singleton_of_ne {c : Char} (h : c ≠ '\n') : lineFeeds [c] = 0 :=
  List.count_eq_zero.mpr (by simpa using h.symm)

@[simp] theorem length_slice (t : Text) (first past : Nat) :
    (slice t first past).length = min (past - first) (t.length - first) := by
  simp [slice]

/-- A natural number in decimal, without leading zeros. -/
def ofNat (n : Nat) : Text := Nat.toDigits 10 n

/-- An integer in decimal, a minus sign in front when it is negative. -/
def ofInt : Int → Text
  | .ofNat n => ofNat n
  | .negSucc n => '-' :: ofNat (n + 1)

/-- The lower-case hexadecimal digits of the `width` lowest hexadecimal places of `n`. -/
def hexadecimal : Nat → Nat → Text
  | 0, _ => []
  | width + 1, n => hexadecimal width (n / 16) ++ [Nat.digitChar (n % 16)]

@[simp] theorem length_hexadecimal (width n : Nat) :
    (hexadecimal width n).length = width := by
  induction width generalizing n with
  | zero => rfl
  | succ width ih => simp [hexadecimal, ih]

/-- The text made of the given lines, each closed by a line feed. -/
def ofLines (ts : List Text) : Text := ts.flatMap fun t => t ++ ['\n']

end Text

end LoxLexis
