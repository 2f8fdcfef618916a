import LoxLexis.Proofs.Number.Fewest
import LoxLexis.Proofs.Number.ReadBack
import Mathlib

/-!
# Significant digits

A numeral may have blanks around it, a sign, underscores between its digits, a point and an exponent,
and its digits may belong to any script.  Its significant digits are those in front of the exponent
without the zeros at either end.  Every stage of reading leaves them as they are, and what the parts
of a numeral denote is a decimal of no more digits than these; so a double is displayed with as few of
them as any text that is read as that double.

## Main definitions

* `Text.mantissa` — the digits of a text in front of its exponent
* `Text.significant` — the significant digits of a text

## Main statements

* `Binary64.exists_numeral` — what is read has the digits of the parts of a numeral
* `Magnitude.length_significant_display_le` — no text that reads back has fewer significant digits
  than the display
-/

namespace LoxLexis

/-! ### Zeros at both ends -/

namespace Text

/-- Digits without the zeros at either end. -/
def withoutZeros (ds : Text) : Text :=
  ((ds.dropWhile (· = '0')).reverse.dropWhile (· = '0')).reverse

/-- What a run of zeros at the front leaves. -/
theorem exists_zeros_append (t : Text) :
    ∃ k, t = List.replicate k '0' ++ t.dropWhile (· = '0') := by
  refine ⟨(t.takeWhile (· = '0')).length, ?_⟩
  have zeros : t.takeWhile (· = '0') = List.replicate (t.takeWhile (· = '0')).length '0' := by
    refine List.eq_replicate_length.mpr fun c hc => ?_
    exact of_decide_eq_true (List.all_eq_true.mp List.all_takeWhile c hc)
  rw [← zeros, List.takeWhile_append_dropWhile]

theorem exists_zeros (ds : Text) :
    ∃ i j, ds = List.replicate i '0' ++ (withoutZeros ds ++ List.replicate j '0') := by
  obtain ⟨i, front⟩ := exists_zeros_append ds
  obtain ⟨j, back⟩ := exists_zeros_append (ds.dropWhile (· = '0')).reverse
  refine ⟨i, j, ?_⟩
  have reversed := congrArg List.reverse back
  rw [List.reverse_reverse, List.reverse_append, List.reverse_replicate] at reversed
  rw [withoutZeros, ← reversed, ← front]

theorem dropWhile_zeros (k : ℕ) (t : Text) :
    (List.replicate k '0' ++ t).dropWhile (· = '0') = t.dropWhile (· = '0') :=
  List.dropWhile_append_of_pos fun _ hc => decide_eq_true (List.eq_of_mem_replicate hc)

/-- Zeros at the ends do not count. -/
theorem length_withoutZeros_le (i j : ℕ) (ds : Text) :
    (withoutZeros (List.replicate i '0' ++ (ds ++ List.replicate j '0'))).length ≤ ds.length := by
  have less (t : Text) : (t.dropWhile (· = '0')).length ≤ t.length :=
    (List.dropWhile_sublist _).length_le
  rw [withoutZeros, dropWhile_zeros, List.length_reverse, List.dropWhile_append]
  split
  · have nothing := dropWhile_zeros j []
    rw [List.append_nil, List.dropWhile_nil] at nothing
    rw [nothing]
    exact Nat.zero_le _
  · rw [List.reverse_append, List.reverse_replicate, dropWhile_zeros]
    exact (less _).trans (List.length_reverse.trans_le (less _))

/-! ### The digits in front of the exponent -/

/-- The letter that begins an exponent. -/
def beginsExponent (c : Char) : Bool := c = 'e' || c = 'E'

/-- The digits of a text in front of its exponent. -/
def mantissa (t : Text) : Text :=
  (t.takeWhile fun c => !beginsExponent c).filter Char.isDigit

/-- The significant digits of a text, whatever script they are written in. -/
def significant (t : Text) : Text := withoutZeros (mantissa (t.map toAscii))

theorem isDigit_of_mem_mantissa {t : Text} {c : Char} (h : c ∈ mantissa t) : c.isDigit = true :=
  List.of_mem_filter h

theorem mantissa_exponent {c : Char} (h : beginsExponent c = true) (t : Text) :
    mantissa (c :: t) = [] := by
  simp [mantissa, h]

theorem mantissa_mark {c : Char} (noExponent : beginsExponent c = false)
    (noDigit : c.isDigit = false) (t : Text) : mantissa (c :: t) = mantissa t := by
  simp [mantissa, noExponent, noDigit]

theorem beginsExponent_of_isDigit {c : Char} (h : c.isDigit = true) : beginsExponent c = false := by
  rw [beginsExponent, Bool.or_eq_false_iff, decide_eq_false_iff_not, decide_eq_false_iff_not]
  constructor
  · rintro rfl
    cases h
  · rintro rfl
    cases h

theorem mantissa_digit {c : Char} (h : c.isDigit = true) (t : Text) :
    mantissa (c :: t) = c :: mantissa t := by
  simp [mantissa, beginsExponent_of_isDigit h, h]

theorem mantissa_digits {ds : Text} (h : ∀ c ∈ ds, c.isDigit = true) (t : Text) :
    mantissa (ds ++ t) = ds ++ mantissa t := by
  induction ds with
  | nil => rfl
  | cons c ds ih =>
      obtain ⟨digit, digits⟩ := List.forall_mem_cons.mp h
      rw [List.cons_append, mantissa_digit digit, ih digits, List.cons_append]

/-- One character in front makes the same difference to texts of one mantissa. -/
theorem mantissa_cons_congr {t u : Text} (h : mantissa t = mantissa u) (c : Char) :
    mantissa (c :: t) = mantissa (c :: u) := by
  cases exponent : beginsExponent c with
  | true => rw [mantissa_exponent exponent, mantissa_exponent exponent]
  | false =>
      cases digit : c.isDigit with
      | true => rw [mantissa_digit digit, mantissa_digit digit, h]
      | false => rw [mantissa_mark exponent digit, mantissa_mark exponent digit, h]

/-! ### Stages of reading -/

theorem mantissa_blank {c : Char} (h : isBlank c = true) (t : Text) :
    mantissa (c :: t) = mantissa t := by
  refine mantissa_mark ?_ ?_ t
  · rw [beginsExponent, Bool.or_eq_false_iff, decide_eq_false_iff_not, decide_eq_false_iff_not]
    constructor
    · rintro rfl
      exact absurd h (by decide)
    · rintro rfl
      exact absurd h (by decide)
  · by_contra digit
    rw [Bool.not_eq_false] at digit
    rw [isBlank_of_isDigit digit] at h
    cases h

theorem mantissa_dropWhile (t : Text) : mantissa (t.dropWhile isBlank) = mantissa t := by
  induction t with
  | nil => rfl
  | cons c t ih =>
      cases blank : isBlank c with
      | true => rw [List.dropWhile_cons_of_pos blank, ih, mantissa_blank blank]
      | false => rw [List.dropWhile_cons_of_neg (by rw [blank]; decide)]

theorem mantissa_append_blanks (t : Text) {blanks : Text} (h : ∀ c ∈ blanks, isBlank c = true) :
    mantissa (t ++ blanks) = mantissa t := by
  induction t with
  | nil =>
      rw [List.nil_append, ← mantissa_dropWhile, dropWhile_of_forall h]
  | cons c t ih => exact mantissa_cons_congr ih c

theorem mantissa_trimmed (t : Text) : mantissa (trimmed t) = mantissa t := by
  have blanks : ∀ c ∈ ((t.dropWhile isBlank).reverse.takeWhile isBlank).reverse, isBlank c = true :=
    fun c hc => List.all_eq_true.mp List.all_takeWhile c (List.mem_reverse.mp hc)
  rw [← mantissa_dropWhile t, ← mantissa_append_blanks (trimmed t) blanks, trimmed,
    ← List.reverse_append, List.takeWhile_append_dropWhile, List.reverse_reverse]

theorem mantissa_ungroupedAfter {afterDigit : Bool} {t u : Text}
    (h : ungroupedAfter afterDigit t = some u) : mantissa u = mantissa t := by
  induction t generalizing afterDigit u with
  | nil =>
      cases h
      rfl
  | cons c t ih =>
      rw [ungroupedAfter] at h
      split at h
      · next underscore =>
          split at h
          · rw [ih h, underscore]
            exact (mantissa_mark (by decide) (by decide) t).symm
          · cases h
      · obtain ⟨v, hv, rfl⟩ := Option.map_eq_some_iff.mp h
        exact mantissa_cons_congr (ih hv) c

theorem mantissa_splitSign (t : Text) : mantissa (splitSign t).2 = mantissa t := by
  unfold splitSign
  split
  · exact (mantissa_mark (by decide) (by decide) _).symm
  · exact (mantissa_mark (by decide) (by decide) _).symm
  · rfl

end Text

/-! ### Numerals -/

namespace Numeral

open Text

theorem mantissa_of_exponent? {t : Text} {e : ℤ} (h : exponent? t = some e) : mantissa t = [] := by
  unfold exponent? at h
  split at h
  · rfl
  · next c rest =>
      split at h
      · next letter =>
          refine mantissa_exponent ?_ rest
          rw [beginsExponent, Bool.or_eq_true, decide_eq_true_eq, decide_eq_true_eq]
          exact letter
      · cases h

theorem eq_of_afterPoint? {t u : Text} (h : afterPoint? t = some u) : t = '.' :: u := by
  unfold afterPoint? at h
  split at h
  · cases h
    rfl
  · cases h

/-- A text that consists of the parts of a numeral has the digits of these. -/
theorem mantissa_of_ofText? {t : Text} {n : Numeral} (h : ofText? t = some n) :
    mantissa t = n.whole ++ n.fraction := by
  have digits (u : Text) :
      mantissa u = u.takeWhile Char.isDigit ++ mantissa (u.dropWhile Char.isDigit) := by
    rw [← mantissa_digits (List.all_eq_true.mp List.all_takeWhile), List.takeWhile_append_dropWhile]
  rw [digits t]
  cases point : afterPoint? (t.dropWhile Char.isDigit) with
  | some rest =>
      simp only [ofText?, point] at h
      split at h
      · cases h
      · obtain ⟨e, exponent, rfl⟩ := Option.map_eq_some_iff.mp h
        rw [eq_of_afterPoint? point, mantissa_mark (by decide) (by decide), digits rest,
          mantissa_of_exponent? exponent, List.append_nil]
  | none =>
      simp only [ofText?, point] at h
      split at h
      · cases h
      · obtain ⟨e, exponent, rfl⟩ := Option.map_eq_some_iff.mp h
        rw [mantissa_of_exponent? exponent]

end Numeral

open Text

/-- **What is read has the digits of the parts of a numeral.** -/
theorem Binary64.exists_numeral {t : Text} {negative : Bool} {m : Magnitude}
    (h : ofText? t = some (.finite negative m)) :
    ∃ n : Numeral, n.magnitude? = some m ∧ mantissa (t.map toAscii) = n.whole ++ n.fraction := by
  obtain ⟨plain, grouped, h⟩ := Option.bind_eq_some_iff.mp h
  rw [ofPlainText?] at h
  simp only at h
  split at h
  · cases h
  split at h
  · cases h
  obtain ⟨n, parts, h⟩ := Option.map_eq_some_iff.mp h
  refine ⟨n, ?_, ?_⟩
  · cases read : n.magnitude? with
    | none =>
        rw [read] at h
        cases h
    | some m' =>
        rw [read] at h
        exact congrArg some (Binary64.finite.inj h).2
  · rw [← Numeral.mantissa_of_ofText? parts, mantissa_splitSign, mantissa_ungroupedAfter grouped,
      mantissa_trimmed]

namespace Text

/-- So many digits denote a number below that power of ten. -/
theorem toNat_lt {ds : Text} (h : ∀ c ∈ ds, c.isDigit = true) : toNat ds < 10 ^ ds.length := by
  induction ds with
  | nil => decide
  | cons c ds ih =>
      obtain ⟨digit, digits⟩ := List.forall_mem_cons.mp h
      have one : toNat [c] ≤ 9 := by
        obtain ⟨low, high⟩ := toNat_bounds_of_isDigit digit
        show 10 * 0 + (c.toNat - 48) ≤ 9
        omega
      have rest := ih digits
      have first : toNat [c] * 10 ^ ds.length ≤ 9 * 10 ^ ds.length := Nat.mul_le_mul_right _ one
      rw [← List.singleton_append, toNat_append, List.length_append, List.length_singleton,
        Nat.add_comm 1, Nat.pow_succ]
      omega

end Text

/-- The significant digits of the parts of a numeral are enough to denote the number. -/
theorem Numeral.digitCount_shortest_le {n : Numeral} {m : Magnitude} (nonzero : m ≠ .zero)
    (reads : n.magnitude? = some m) (digits : ∀ c ∈ n.whole ++ n.fraction, c.isDigit = true) :
    digitCount m.shortest.digits ≤ (withoutZeros (n.whole ++ n.fraction)).length := by
  obtain ⟨i, j, zeros⟩ := exists_zeros (n.whole ++ n.fraction)
  generalize withoutZeros (n.whole ++ n.fraction) = ds at zeros ⊢
  have fewer : ∀ c ∈ ds, c.isDigit = true := fun c hc => digits c <| by
    rw [zeros]
    exact List.mem_append_right _ (List.mem_append_left _ hc)
  obtain ⟨d, hd⟩ : ∃ d : Decimal, d = ⟨toNat ds, n.toDecimal.exponent + j⟩ := ⟨_, rfl⟩
  have shifted : n.toDecimal = d.shifted j := by
    rw [hd, Decimal.shifted, Int.add_sub_cancel, ← toNat_append_zeros,
      ← toNat_zeros_append i, ← zeros]
    rfl
  have readsShort : d.magnitude? = some m := by
    rw [← d.magnitude?_shifted j, ← shifted]
    exact reads
  have some : 0 < ds.length := by
    rw [List.length_pos_iff]
    rintro rfl
    rw [Decimal.magnitude?, if_pos (.inl (by rw [hd]; rfl))] at readsShort
    exact nonzero (Option.some.inj readsShort).symm
  refine (Magnitude.digitCount_shortest_le nonzero readsShort).trans ?_
  rw [hd]
  exact (digitCount_le_iff some).mpr (toNat_lt fewer)

/-! ### Displays -/

namespace Decimal

/-- With the digits in their places there are zeros at most at the ends. -/
theorem exists_mantissa_positional (d : Decimal) :
    ∃ i j, mantissa d.positional =
      List.replicate i '0' ++ (Text.ofNat d.digits ++ List.replicate j '0') := by
  obtain ⟨n, exponent⟩ := d
  cases exponent with
  | ofNat e =>
      have zeros := ((digits_ofNat n).append_zeros e).isDigit
      refine ⟨0, e + 1, ?_⟩
      show mantissa (Text.ofNat n ++ List.replicate e '0' ++ ['.', '0']) = _
      rw [mantissa_digits zeros, List.append_assoc, List.replicate_succ' (n := e)]
      rfl
  | negSucc e =>
      have padded := ((digits_ofNat n).zeros_append (e + 2 - (Text.ofNat n).length)).isDigit
      refine ⟨e + 2 - (Text.ofNat n).length, 0, ?_⟩
      show mantissa (List.take _ (List.replicate (e + 2 - (Text.ofNat n).length) '0' ++
        Text.ofNat n) ++ '.' :: List.drop _ _) = _
      rw [List.replicate_zero, List.append_nil]
      generalize List.replicate (e + 2 - (Text.ofNat n).length) '0' ++ Text.ofNat n = ds
        at padded ⊢
      have fraction : ∀ c ∈ ds.drop (ds.length - (e + 1)), c.isDigit = true :=
        fun c hc => padded c (List.drop_subset _ _ hc)
      have whole : ∀ c ∈ ds.take (ds.length - (e + 1)), c.isDigit = true :=
        fun c hc => padded c (List.take_subset _ _ hc)
      have last := mantissa_digits fraction []
      rw [List.append_nil] at last
      rw [mantissa_digits whole, mantissa_mark (by decide) (by decide), last]
      exact (congrArg _ (List.append_nil _)).trans (List.take_append_drop _ ds)

/-- With an exponent there are none. -/
theorem mantissa_scientific (d : Decimal) : mantissa d.scientific = Text.ofNat d.digits := by
  have digits := (digits_ofNat d.digits).isDigit
  obtain ⟨c, others, text⟩ := List.exists_cons_of_ne_nil (digits_ofNat d.digits).ne_nil
  rw [text] at digits ⊢
  obtain ⟨first, rest⟩ := List.forall_mem_cons.mp digits
  have written : d.scientific = c :: ((if others.isEmpty then [] else '.' :: others) ++
      'e' :: exponentText d.leadingExponent) := by
    rw [scientific, text]
    rfl
  rw [written, mantissa_digit first]
  cases others with
  | nil => rfl
  | cons o others =>
      show c :: mantissa ('.' :: ((o :: others) ++ 'e' :: _)) = _
      rw [mantissa_mark (by decide) (by decide), mantissa_digits rest,
        mantissa_exponent (by decide), List.append_nil]

/-- A displayed decimal has its digits for its mantissa, with zeros at most at the ends. -/
theorem exists_mantissa_display (d : Decimal) :
    ∃ i j, mantissa d.display =
      List.replicate i '0' ++ (Text.ofNat d.digits ++ List.replicate j '0') := by
  rw [display]
  split
  · exact d.exists_mantissa_positional
  · refine ⟨0, 0, ?_⟩
    rw [mantissa_scientific, List.replicate_zero, List.nil_append, List.append_nil]

end Decimal

namespace Magnitude

variable {m : Magnitude}

theorem map_toAscii_display (m : Magnitude) : m.display.map toAscii = m.display := by
  obtain ⟨n, spelled, -⟩ := m.exists_spelling
  exact spelled.numeric.map_toAscii_signed false

theorem length_significant_display_le_digitCount (nonzero : m ≠ .zero) :
    (significant m.display).length ≤ digitCount m.shortest.digits := by
  have units : m.units ≠ 0 := fun zero => nonzero (Magnitude.ext zero)
  obtain ⟨i, j, digits⟩ := m.shortest.exists_mantissa_display
  have shown : mantissa m.display = mantissa m.shortest.display := by
    rw [display, if_neg units]
  rw [significant, map_toAscii_display, shown, digits]
  exact length_withoutZeros_le i j _

/-- **No text that reads back has fewer significant digits than the display.** -/
theorem length_significant_display_le {t : Text}
    (reads : Binary64.ofText? t = some (.finite false m)) :
    (significant m.display).length ≤ (significant t).length := by
  by_cases zero : m = .zero
  · subst zero
    have nothing : (significant zero.display).length = 0 := by decide
    rw [nothing]
    exact Nat.zero_le _
  · obtain ⟨n, hn, digits⟩ := Binary64.exists_numeral reads
    refine (length_significant_display_le_digitCount zero).trans ?_
    rw [significant, digits]
    refine n.digitCount_shortest_le zero hn fun c hc => ?_
    rw [← digits] at hc
    exact isDigit_of_mem_mantissa hc

/-- Two digits are significant here; the one in front is a zero of another script. -/
example : significant " -٠0_0.01_20E+5".toList = "12".toList := by decide

end Magnitude

end LoxLexis
