import LoxLexis.Number.Numeral
import LoxLexis.Proofs.Segment.Front

/-!
# Reading numerals

Reading numbers goes through blanks, underscores, signs and words.  The numerals of a source and
those of a display have no blanks and underscores and are no words: they are made of ASCII digits, a
point and an exponent, with a digit at both ends, and at most a minus sign in front.  Reading such a
text is no more than taking its sign off and rounding the number that its parts denote.

## Main definitions

* `Numeric` — a text of the characters of numerals that begins and ends with a digit
* `Text.signed` — a text with a minus sign in front where it is negative

## Main statements

* `Numeral.ofText?_bare`, `Numeral.ofText?_point` — the parts of a numeral are found
* `Binary64.ofText?_signed` — what reading such a text comes down to
-/

namespace LoxLexis

theorem toNat_bounds_of_isDigit {c : Char} (h : c.isDigit = true) : 48 ≤ c.toNat ∧ c.toNat ≤ 57 :=
  Char.isDigit_iff_toNat.mp h

theorem Text.isBlank_of_isDigit {c : Char} (h : c.isDigit = true) : isBlank c = false := by
  obtain ⟨low, high⟩ := toNat_bounds_of_isDigit h
  have space : c ≠ ' ' := by
    rintro rfl
    simp at h
  simp only [isBlank, space, decide_false, Bool.false_or, Bool.and_eq_false_iff,
    decide_eq_false_iff_not]
  omega

theorem Text.ungroupedAfter_of_notMem {t : Text} (h : '_' ∉ t) (afterDigit : Bool) :
    ungroupedAfter afterDigit t = some t := by
  induction t generalizing afterDigit with
  | nil => rfl
  | cons c rest ih =>
      obtain ⟨hc, hrest⟩ := not_or.mp (mt List.mem_cons.mpr h)
      rw [ungroupedAfter, if_neg (Ne.symm hc), ih hrest]
      rfl

/-! ### The characters of numerals -/

/-- The characters of numerals. -/
def IsNumeric (c : Char) : Prop := c.isDigit = true ∨ c ∈ ['.', 'e', '+', '-']

theorem IsNumeric.bounds {c : Char} (h : IsNumeric c) : c.toNat < 0x80 ∧ c ≠ '_' := by
  rcases h with digit | mark
  · obtain ⟨-, high⟩ := toNat_bounds_of_isDigit digit
    refine ⟨by omega, ?_⟩
    rintro rfl
    simp at digit
  · simp only [List.mem_cons, List.not_mem_nil, or_false] at mark
    rcases mark with rfl | rfl | rfl | rfl
    all_goals decide

/-- A text of the characters of numerals that begins and ends with a digit. -/
structure Numeric (t : Text) : Prop where
  chars : ∀ c ∈ t, IsNumeric c
  first : ∃ d rest, t = d :: rest ∧ d.isDigit = true
  last : ∃ init d, t = init ++ [d] ∧ d.isDigit = true

theorem Digits.exists_concat {ds : Text} (h : Digits ds) :
    ∃ init d, ds = init ++ [d] ∧ d.isDigit = true := by
  rcases List.eq_nil_or_concat ds with hnil | ⟨init, d, rfl⟩
  · exact absurd hnil h.ne_nil
  · rw [List.concat_eq_append] at h ⊢
    exact ⟨init, d, rfl, h.isDigit d (by simp)⟩

theorem Digits.numeric {ds : Text} (h : Digits ds) : Numeric ds where
  chars := fun c hc => .inl (h.isDigit c hc)
  first := by
    obtain ⟨d, rest, rfl, hd, -⟩ := h.exists_cons
    exact ⟨d, rest, rfl, hd⟩
  last := h.exists_concat

namespace Numeric

variable {t u : Text}

/-- What stands between two such texts may be any characters of numerals. -/
theorem append (ht : Numeric t) (hu : Numeric u) (between : Text)
    (chars : ∀ c ∈ between, IsNumeric c) : Numeric (t ++ (between ++ u)) where
  chars := List.forall_mem_append.mpr ⟨ht.chars, List.forall_mem_append.mpr ⟨chars, hu.chars⟩⟩
  first := by
    obtain ⟨d, rest, rfl, hd⟩ := ht.first
    exact ⟨d, rest ++ (between ++ u), rfl, hd⟩
  last := by
    obtain ⟨init, d, rfl, hd⟩ := hu.last
    exact ⟨t ++ (between ++ init), d, by simp only [List.append_assoc], hd⟩

theorem append_point (ht : Numeric t) (hu : Numeric u) : Numeric (t ++ '.' :: u) := by
  refine ht.append hu ['.'] fun c hc => .inr ?_
  rw [List.mem_singleton.mp hc]
  decide

end Numeric

/-! ### The parts of numerals -/

namespace Numeral

variable {w f x : Text} {e : Int}

theorem ofText?_bare (whole : Digits w) (stop : x.head?.any Char.isDigit = false)
    (noPoint : afterPoint? x = none) (exponent : exponent? x = some e) :
    ofText? (w ++ x) = some { whole := w, fraction := [], exponent := e } := by
  simp only [ofText?, takeWhile_append_of_head whole.isDigit stop,
    dropWhile_append_of_head whole.isDigit stop, noPoint,
    List.isEmpty_eq_false_iff.mpr whole.ne_nil, exponent]
  rfl

theorem ofText?_point (whole : Digits w) (fraction : Digits f)
    (stop : x.head?.any Char.isDigit = false) (exponent : exponent? x = some e) :
    ofText? (w ++ '.' :: (f ++ x)) = some { whole := w, fraction := f, exponent := e } := by
  have point : ('.' :: (f ++ x)).head?.any Char.isDigit = false := rfl
  simp only [ofText?, takeWhile_append_of_head whole.isDigit point,
    dropWhile_append_of_head whole.isDigit point, afterPoint?,
    takeWhile_append_of_head fraction.isDigit stop, dropWhile_append_of_head fraction.isDigit stop,
    List.isEmpty_eq_false_iff.mpr whole.ne_nil, exponent]
  rfl

end Numeral

/-! ### The stages of reading -/

/-- A text with a minus sign in front where it is negative. -/
def Text.signed (negative : Bool) (t : Text) : Text := (if negative then ['-'] else []) ++ t

namespace Numeric

variable {t : Text}

theorem signed_chars (h : Numeric t) (negative : Bool) :
    ∀ c ∈ Text.signed negative t, IsNumeric c := by
  cases negative with
  | false => exact h.chars
  | true => exact List.forall_mem_cons.mpr ⟨.inr (by decide), h.chars⟩

/-- A numeral is written in ASCII. -/
theorem map_toAscii_signed (h : Numeric t) (negative : Bool) :
    (Text.signed negative t).map Text.toAscii = Text.signed negative t := by
  have ascii : ∀ c ∈ Text.signed negative t, Text.toAscii c = id c :=
    fun c hc => Text.toAscii_of_lt (h.signed_chars negative c hc).bounds.1
  rw [List.map_congr_left ascii, List.map_id]

/-- No blank stands around a numeral. -/
theorem trimmed_signed (h : Numeric t) (negative : Bool) :
    Text.trimmed (Text.signed negative t) = Text.signed negative t := by
  have front : (Text.signed negative t).dropWhile Text.isBlank = Text.signed negative t := by
    obtain ⟨d, rest, rfl, hd⟩ := h.first
    cases negative with
    | false => exact List.dropWhile_cons_of_neg (by simp [Text.isBlank_of_isDigit hd])
    | true => rfl
  have back : (Text.signed negative t).reverse.dropWhile Text.isBlank =
      (Text.signed negative t).reverse := by
    obtain ⟨init, d, rfl, hd⟩ := h.last
    rw [Text.signed, ← List.append_assoc, List.reverse_append, List.reverse_singleton,
      List.singleton_append]
    exact List.dropWhile_cons_of_neg (by simp [Text.isBlank_of_isDigit hd])
  rw [Text.trimmed, front, back, List.reverse_reverse]

theorem ungrouped?_signed (h : Numeric t) (negative : Bool) :
    Text.ungrouped? (Text.signed negative t) = some (Text.signed negative t) :=
  Text.ungroupedAfter_of_notMem (fun hu => (h.signed_chars negative _ hu).bounds.2 rfl) false

theorem splitSign_signed (h : Numeric t) (negative : Bool) :
    Text.splitSign (Text.signed negative t) = (negative, t) := by
  cases negative with
  | true => rfl
  | false =>
      obtain ⟨d, rest, rfl, hd⟩ := h.first
      show Text.splitSign (d :: rest) = _
      unfold Text.splitSign
      split
      · next heq => simp [(List.cons.inj heq).1] at hd
      · next heq => simp [(List.cons.inj heq).1] at hd
      · rfl

/-- A numeral is none of the words. -/
theorem map_toLower_ne (h : Numeric t) {c : Char} {word : Text} (hc : c.isDigit = false) :
    t.map Char.toLower ≠ c :: word := by
  obtain ⟨d, rest, rfl, hd⟩ := h.first
  intro heq
  have head : d.toLower = c := (List.cons.inj heq).1
  -- All the words begin with letters, and a digit is its own lower case.
  have same : d.toLower = d := by
    obtain ⟨low, high⟩ := toNat_bounds_of_isDigit hd
    refine dif_neg fun upper => ?_
    have : 65 ≤ d.toNat := upper.1
    omega
  rw [same] at head
  rw [head, hc] at hd
  cases hd

end Numeric

/-- **Reading a numeral takes its sign off and rounds the number that its parts denote.** -/
theorem Binary64.ofText?_signed {t : Text} (h : Numeric t) {n : Numeral}
    (parts : Numeral.ofText? t = some n) (negative : Bool) :
    Binary64.ofText? (Text.signed negative t) = some (.ofMagnitude? negative n.magnitude?) := by
  have infinity : ¬ (t.map Char.toLower = "inf".toList ∨ t.map Char.toLower = "infinity".toList) := by
    rintro (heq | heq)
    · exact h.map_toLower_ne (by decide) heq
    · exact h.map_toLower_ne (by decide) heq
  have nan : t.map Char.toLower ≠ "nan".toList := h.map_toLower_ne (by decide)
  rw [Binary64.ofText?, h.map_toAscii_signed, h.trimmed_signed, h.ungrouped?_signed,
    Option.bind_some, Binary64.ofPlainText?, h.splitSign_signed]
  simp only [if_neg infinity, if_neg nan, parts]
  rfl

end LoxLexis
