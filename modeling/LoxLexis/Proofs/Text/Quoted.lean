import LoxLexis.Proofs.Text.Runs
import LoxLexis.Text.Quoted

/-!
# Quoted texts told apart

Between its marks a quoted text is made of pieces, one for each character, and the closing mark is a
piece of its own.  A piece can be read off the front of what is written from there on: it begins
with a backslash unless it is a character that stands for itself, and after the backslash the next
character tells how long it is.  So quoted texts are told apart wherever they stand, and what comes
after the closing mark does not matter.

## Main definitions

* `Text.piece` — the text of a character between marks, or of the closing mark
* `Text.readPiece` — the character or the mark that a text begins with

## Main statements

* `Text.readPiece_piece` — every piece is read back, whatever comes after it
* `Text.eq_of_quoted_append` — quoted texts are told apart by their beginnings
-/

namespace LoxLexis.Text

-- Powers are those of the natural numbers themselves, also beside a library that brings its own.
attribute [local instance (high)] instPowNat

/-! ### Hexadecimal digits -/

/-- The value of a hexadecimal digit. -/
def hexDigitValue (c : Char) : Nat := "0123456789abcdef".toList.idxOf c

/-- The number that hexadecimal digits denote. -/
def hexValue (digits : Text) : Nat := digits.foldl (fun value c => value * 16 + hexDigitValue c) 0

theorem hexDigitValue_digitChar {n : Nat} (h : n < 16) : hexDigitValue (Nat.digitChar n) = n := by
  have each : ∀ d : Fin 16, hexDigitValue (Nat.digitChar d) = d := by decide
  exact each ⟨n, h⟩

theorem hexValue_concat (digits : Text) (c : Char) :
    hexValue (digits ++ [c]) = hexValue digits * 16 + hexDigitValue c := by
  rw [hexValue, List.foldl_append, hexValue]
  rfl

/-- A number is read off its hexadecimal digits. -/
theorem hexValue_hexadecimal {width n : Nat} (h : n < 16 ^ width) :
    hexValue (hexadecimal width n) = n := by
  induction width generalizing n with
  | zero =>
      have zero : n = 0 := Nat.lt_one_iff.mp h
      rw [zero]
      rfl
  | succ width ih =>
      have higher : n / 16 < 16 ^ width := Nat.div_lt_of_lt_mul (by rwa [Nat.mul_comm, ← Nat.pow_succ])
      rw [hexadecimal, hexValue_concat, ih higher, hexDigitValue_digitChar (Nat.mod_lt n (by decide)),
        Nat.div_add_mod']

/-! ### Pieces -/

/-- The text of a character between marks, or of the closing mark. -/
def piece (mark : Char) : Option Char → Text
  | none => [mark]
  | some c => escaped mark c

/-- The character that a text denotes in its beginning after a backslash. -/
def readEscape : Text → Char
  | [] => '\\'
  | 'n' :: _ => '\n'
  | 'r' :: _ => '\r'
  | 't' :: _ => '\t'
  | 'x' :: t => Char.ofNat (hexValue (t.take 2))
  | 'u' :: t => Char.ofNat (hexValue (t.take 4))
  | 'U' :: t => Char.ofNat (hexValue (t.take 8))
  | c :: _ => c

/-- The character that a text begins with between marks, if it does not begin with the mark. -/
def readPiece (mark : Char) : Text → Option Char
  | [] => none
  | c :: t =>
    if c = '\\' then some (readEscape t)
    else if c = mark then none
    else some c

/-- The two marks. -/
theorem mark_cases (t : Text) : mark t = apostrophe ∨ mark t = doubleQuote := by
  rw [mark]
  split
  · exact .inr rfl
  · exact .inl rfl

/-- A number that is written in hexadecimal in front of a text is the character read from it. -/
theorem ofNat_hexValue_take {c : Char} (width : Nat) (h : c.toNat < 16 ^ width) (x : Text) :
    Char.ofNat (hexValue ((hexadecimal width c.toNat ++ x).take width)) = c := by
  rw [List.take_left' (length_hexadecimal width c.toNat), hexValue_hexadecimal h, Char.ofNat_toNat]

theorem readPiece_escapedCode (mark c : Char) (x : Text) :
    readPiece mark (escapedCode c ++ x) = some c := by
  rw [escapedCode]
  by_cases byte : c.toNat < 0x100
  · rw [if_pos byte]
    exact congrArg some (ofNat_hexValue_take 2 byte x)
  rw [if_neg byte]
  by_cases word : c.toNat < 0x10000
  · rw [if_pos word]
    exact congrArg some (ofNat_hexValue_take 4 word x)
  · have code : c.toNat < 16 ^ (8 : Nat) := Nat.lt_of_lt_of_le c.val.toNat_lt (by decide)
    rw [if_neg word]
    exact congrArg some (ofNat_hexValue_take 8 code x)

theorem readPiece_escaped {mark : Char} (h : mark = apostrophe ∨ mark = doubleQuote) (c : Char)
    (x : Text) : readPiece mark (escaped mark c ++ x) = some c := by
  by_cases special : c = mark ∨ c = '\\'
  · rw [escaped, if_pos special]
    -- Neither the marks nor the backslash is a letter that an escape begins with.
    rcases special with rfl | rfl
    · rcases h with rfl | rfl
      · rfl
      · rfl
    · rfl
  rw [escaped, if_neg special]
  by_cases feed : c = '\n'
  · rw [if_pos feed, feed]
    rfl
  rw [if_neg feed]
  by_cases ret : c = '\r'
  · rw [if_pos ret, ret]
    rfl
  rw [if_neg ret]
  by_cases tab : c = '\t'
  · rw [if_pos tab, tab]
    rfl
  rw [if_neg tab]
  by_cases printable : isPrintable c = true
  · obtain ⟨notMark, notBackslash⟩ := not_or.mp special
    rw [if_pos printable]
    show (if c = '\\' then some (readEscape x) else if c = mark then none else some c) = some c
    rw [if_neg notBackslash, if_neg notMark]
  · rw [if_neg printable, readPiece_escapedCode]

/-- **Every piece is read back, whatever comes after it.** -/
theorem readPiece_piece {mark : Char} (h : mark = apostrophe ∨ mark = doubleQuote) (p : Option Char)
    (x : Text) : readPiece mark (piece mark p ++ x) = p := by
  cases p with
  | none =>
      rcases h with rfl | rfl
      · rfl
      · rfl
  | some c => exact readPiece_escaped h c x

/-! ### Whole texts -/

theorem quoted_eq (t : Text) :
    quoted t = mark t :: (t.map some ++ [none]).flatMap (piece (mark t)) := by
  rw [quoted, List.flatMap_append, List.flatMap_map, List.flatMap_singleton]
  rfl

/-- The pieces of two texts that are quoted with one mark tell the texts apart. -/
theorem eq_of_flatMap_piece {m : Char} (h : m = apostrophe ∨ m = doubleQuote) {s t : Text}
    (begins : (s.map some ++ [none]).flatMap (piece m) <+: (t.map some ++ [none]).flatMap (piece m)) :
    s = t := by
  have apart {p q : Option Char} (_ : True) (_ : True) {x y : Text}
      (same : piece m p ++ x = piece m q ++ y) : p = q := by
    rw [← readPiece_piece h p x, same, readPiece_piece h q y]
  have characters (t : Text) : ∀ p ∈ t.map some, True ∧ p ≠ none := by
    intro p hp
    obtain ⟨c, -, rfl⟩ := List.mem_map.mp hp
    exact ⟨trivial, nofun⟩
  have maps := eq_of_flatMap_prefix apart trivial (characters s) (characters t) begins
  exact (List.map_inj_right fun _ _ => Option.some.inj).mp maps

/-- **Quoted texts are told apart by their beginnings.** -/
theorem eq_of_quoted_append {s t x y : Text} (h : quoted s ++ x = quoted t ++ y) :
    s = t ∧ x = y := by
  have marks : mark s = mark t := by
    rw [quoted_eq, quoted_eq] at h
    exact (List.cons.inj h).1
  have whole : s = t := by
    rw [quoted_eq, quoted_eq, marks] at h
    have bodies := (List.cons.inj h).2
    rcases List.prefix_or_prefix_of_prefix ⟨x, rfl⟩ ⟨y, bodies.symm⟩ with begins | begins
    · exact eq_of_flatMap_piece (mark_cases t) begins
    · exact (eq_of_flatMap_piece (mark_cases t) begins).symm
  rw [whole] at h
  exact ⟨whole, List.append_cancel_left h⟩

end LoxLexis.Text
