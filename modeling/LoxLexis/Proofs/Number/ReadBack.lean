import LoxLexis.Number.Display
import LoxLexis.Proofs.Number.Plain
import LoxLexis.Proofs.Number.Scaling

/-!
# Displayed numbers read back

A double is displayed with the digits of a decimal that is read as that double.  It remains to see
that reading the display finds this decimal again: in either form the digits stand in the display
one after the other, and the place of the point and the exponent make up for each other.  Both
forms are numerals of one kind, and all that reading needs to know of a display is in `Spelling`.

## Main definitions

* `Spelling` — a text made of digits, a point and an exponent, and the numeral it spells

## Main statements

* `Spelling.ofText?` — what is spelled is read
* `Decimal.exists_spelling` — a displayed decimal spells the decimal
* `Binary64.ofText?_display` — every double is read off its display
-/

namespace LoxLexis

/-! ### Digits and their value -/

theorem digits_ofNat (n : Nat) : Digits (Text.ofNat n) where
  ne_nil := Nat.toDigits_ne_nil
  isDigit := fun _ hc => Nat.isDigit_of_mem_toDigits (by decide) (by decide) hc

theorem isDigit_of_mem_zeros {k : Nat} {c : Char} (h : c ∈ List.replicate k '0') :
    c.isDigit = true := by
  rw [List.eq_of_mem_replicate h]
  decide

/-- Digits with zeros in front or behind are digits. -/
theorem Digits.zeros_append {ds : Text} (h : Digits ds) (k : Nat) :
    Digits (List.replicate k '0' ++ ds) where
  ne_nil := List.append_ne_nil_of_right_ne_nil _ h.ne_nil
  isDigit := fun c hc => (List.mem_append.mp hc).elim isDigit_of_mem_zeros (h.isDigit c)

theorem Digits.append_zeros {ds : Text} (h : Digits ds) (k : Nat) :
    Digits (ds ++ List.replicate k '0') where
  ne_nil := List.append_ne_nil_of_left_ne_nil h.ne_nil _
  isDigit := fun c hc => (List.mem_append.mp hc).elim (h.isDigit c) isDigit_of_mem_zeros

/-- Any part of digits is digits, unless it is empty. -/
theorem Digits.of_subset {ds es : Text} (h : Digits ds) (subset : es ⊆ ds) (ne_nil : es ≠ []) :
    Digits es where
  ne_nil := ne_nil
  isDigit := fun c hc => h.isDigit c (subset hc)

namespace Text

theorem toNat_ofNat (n : Nat) : toNat (ofNat n) = n := Nat.ofDigitChars_ten_toDigits

/-- Digits with others after them. -/
theorem toNat_append (ds es : Text) : toNat (ds ++ es) = toNat ds * 10 ^ es.length + toNat es := by
  rw [toNat, Nat.ofDigitChars_append, Nat.ofDigitChars_eq_ofDigitChars_zero, Nat.mul_comm]
  rfl

theorem toNat_zeros_append (k : Nat) (ds : Text) : toNat (List.replicate k '0' ++ ds) = toNat ds := by
  rw [toNat, Nat.ofDigitChars_append, Nat.ofDigitChars_replicate_zero, Nat.mul_zero, toNat]

theorem toNat_append_zeros (ds : Text) (k : Nat) :
    toNat (ds ++ List.replicate k '0') = toNat ds * 10 ^ k := by
  rw [toNat, Nat.ofDigitChars_append, Nat.ofDigitChars_replicate_zero, Nat.mul_comm, toNat]

end Text

/-! ### Numerals -/

/-- A text made of digits, a point and an exponent, and the numeral it spells. -/
inductive Spelling : Text → Numeral → Prop
  | places {w f : Text} (whole : Digits w) (fraction : Digits f) :
    Spelling (w ++ '.' :: f) { whole := w, fraction := f, exponent := 0 }
  | bare {w : Text} (whole : Digits w) (e : Int) :
    Spelling (w ++ 'e' :: Decimal.exponentText e) { whole := w, fraction := [], exponent := e }
  | point {w f : Text} (whole : Digits w) (fraction : Digits f) (e : Int) :
    Spelling (w ++ '.' :: (f ++ 'e' :: Decimal.exponentText e))
      { whole := w, fraction := f, exponent := e }

/-- An exponent is a sign and digits of its absolute value. -/
theorem Decimal.exponentText_eq (e : Int) :
    ∃ ds, Digits ds ∧ Text.toNat ds = e.natAbs ∧
      exponentText e = (if e < 0 then '-' else '+') :: ds := by
  refine ⟨_, (digits_ofNat e.natAbs).zeros_append (2 - (Text.ofNat e.natAbs).length), ?_, rfl⟩
  rw [Text.toNat_zeros_append, Text.toNat_ofNat]

namespace Numeral

/-- An exponent is read back. -/
theorem exponent?_exponentText (e : Int) :
    exponent? ('e' :: Decimal.exponentText e) = some e := by
  obtain ⟨ds, digits, value, text⟩ := Decimal.exponentText_eq e
  have nonempty : ds.isEmpty = false := List.isEmpty_eq_false_iff.mpr digits.ne_nil
  have all : ds.all Char.isDigit = true := List.all_eq_true.mpr digits.isDigit
  rw [text, exponent?, if_pos (.inl rfl)]
  by_cases negative : e < 0
  · rw [if_pos negative]
    show (if !ds.isEmpty && ds.all Char.isDigit then some (-(Text.toNat ds : Int)) else none) = _
    rw [nonempty, all, value]
    exact congrArg some (by omega)
  · rw [if_neg negative]
    show (if !ds.isEmpty && ds.all Char.isDigit then some (Text.toNat ds : Int) else none) = _
    rw [nonempty, all, value]
    exact congrArg some (by omega)

end Numeral

/-- **What is spelled is read.** -/
theorem Spelling.ofText? {t : Text} {n : Numeral} (h : Spelling t n) : Numeral.ofText? t = some n := by
  cases h with
  | @places w f whole fraction =>
      have read := Numeral.ofText?_point (x := []) whole fraction rfl rfl
      rwa [List.append_nil] at read
  | bare whole e =>
      exact Numeral.ofText?_bare whole rfl rfl (Numeral.exponent?_exponentText e)
  | point whole fraction e =>
      exact Numeral.ofText?_point whole fraction rfl (Numeral.exponent?_exponentText e)

/-! ### Displays -/

theorem Numeric.append_exponent {t : Text} (ht : Numeric t) (e : Int) :
    Numeric (t ++ 'e' :: Decimal.exponentText e) := by
  obtain ⟨ds, digits, -, text⟩ := Decimal.exponentText_eq e
  have chars : ∀ c ∈ ['e', if e < 0 then '-' else '+'], IsNumeric c := by
    intro c hc
    refine .inr ?_
    rcases List.mem_cons.mp hc with rfl | hc
    · decide
    · rw [List.mem_singleton.mp hc]
      split
      · decide
      · decide
  rw [text]
  exact ht.append digits.numeric _ chars

theorem Spelling.numeric {t : Text} {n : Numeral} (h : Spelling t n) : Numeric t := by
  cases h with
  | places whole fraction => exact whole.numeric.append_point fraction.numeric
  | bare whole e => exact whole.numeric.append_exponent e
  | @point w f whole fraction e =>
      have exponent := (whole.numeric.append_point fraction.numeric).append_exponent e
      rwa [List.append_assoc] at exponent

namespace Decimal

/-- The digits of a decimal in their places spell the decimal, with zeros at most after it. -/
theorem exists_spelling_positional (d : Decimal) :
    ∃ n k, Spelling d.positional n ∧ n.toDecimal = d.shifted k := by
  obtain ⟨digits, exponent⟩ := d
  match exponent with
  | .ofNat e =>
    have zero : Digits ['0'] := digits_ofNat 0
    refine ⟨_, e + 1, .places ((digits_ofNat digits).append_zeros e) zero, ?_⟩
    -- The zeros up to the point and the one after it are further zeros at the end.
    have zeros : List.replicate e '0' ++ ['0'] = List.replicate (e + 1) '0' :=
      List.replicate_succ'.symm
    have value : Text.toNat (Text.ofNat digits ++ List.replicate e '0' ++ ['0']) =
        digits * 10 ^ (e + 1) := by
      rw [List.append_assoc, zeros, Text.toNat_append_zeros, Text.toNat_ofNat]
    have place : (0 : Int) - ((1 : Nat) : Int) = Int.ofNat e - ((e + 1 : Nat) : Int) := by
      rw [Int.ofNat_eq_natCast]
      omega
    exact congr (congrArg Decimal.mk value) place
  | .negSucc e =>
    have padded := (digits_ofNat digits).zeros_append (e + 2 - (Text.ofNat digits).length)
    have value : Text.toNat
        (List.replicate (e + 2 - (Text.ofNat digits).length) '0' ++ Text.ofNat digits) = digits := by
      rw [Text.toNat_zeros_append, Text.toNat_ofNat]
    have long : e + 2 ≤
        (List.replicate (e + 2 - (Text.ofNat digits).length) '0' ++ Text.ofNat digits).length := by
      rw [List.length_append, List.length_replicate]
      omega
    show ∃ n k, Spelling (List.take _ (List.replicate (e + 2 - (Text.ofNat digits).length) '0' ++
      Text.ofNat digits) ++ '.' :: List.drop _ _) n ∧ _
    generalize List.replicate (e + 2 - (Text.ofNat digits).length) '0' ++ Text.ofNat digits = ds
      at padded value long ⊢
    have whole : ds.take (ds.length - (e + 1)) ≠ [] := by
      rw [Ne, List.take_eq_nil_iff, not_or]
      exact ⟨by omega, padded.ne_nil⟩
    have fraction : ds.drop (ds.length - (e + 1)) ≠ [] := by
      rw [Ne, List.drop_eq_nil_iff]
      omega
    refine ⟨_, 0, .places (padded.of_subset (List.take_subset _ _) whole)
      (padded.of_subset (List.drop_subset _ _) fraction), ?_⟩
    have places : (ds.drop (ds.length - (e + 1))).length = e + 1 := by
      rw [List.length_drop]
      omega
    have place : (0 : Int) - ((e + 1 : Nat) : Int) = .negSucc e := by
      rw [Int.negSucc_eq]
      omega
    rw [Numeral.toDecimal, List.take_append_drop, value, places, shifted_zero]
    exact congrArg (Decimal.mk digits) place

/-- The first digit of a decimal, the others after a point, and the exponent of the first digit
spell the decimal. -/
theorem exists_spelling_scientific (d : Decimal) :
    ∃ n, Spelling d.scientific n ∧ n.toDecimal = d := by
  obtain ⟨c, others, text⟩ := List.exists_cons_of_ne_nil (digits_ofNat d.digits).ne_nil
  have digits : Digits (c :: others) := text ▸ digits_ofNat d.digits
  have first : Digits [c] := digits.of_subset (by simp) (List.cons_ne_nil _ _)
  have value : Text.toNat (c :: others) = d.digits := by
    rw [← text, Text.toNat_ofNat]
  have place : d.leadingExponent - (others.length : Int) = d.exponent := by
    rw [leadingExponent, ceilingExponent, digitCount, text, List.length_cons]
    omega
  have written : d.scientific = [c] ++ (if others.isEmpty then [] else '.' :: others) ++
      'e' :: exponentText d.leadingExponent := by
    rw [scientific, text]
    rfl
  rw [written]
  cases others with
  | nil =>
      refine ⟨_, .bare first _, ?_⟩
      exact congr (congrArg Decimal.mk value) place
  | cons o others =>
      have rest : Digits (o :: others) := digits.of_subset (by simp) (List.cons_ne_nil _ _)
      refine ⟨_, .point first rest _, ?_⟩
      exact congr (congrArg Decimal.mk value) place

/-- **A displayed decimal spells the decimal, with zeros at most after it.** -/
theorem exists_spelling (d : Decimal) :
    ∃ n k, Spelling d.display n ∧ n.toDecimal = d.shifted k := by
  rw [display]
  by_cases positional : d.isPositional = true
  · rw [if_pos positional]
    exact d.exists_spelling_positional
  · rw [if_neg positional]
    obtain ⟨n, spelled, same⟩ := d.exists_spelling_scientific
    exact ⟨n, 0, spelled, same.trans d.shifted_zero.symm⟩

end Decimal

/-- A magnitude other than zero is displayed by the spelling of its shortest decimal. -/
theorem Magnitude.exists_spelling_of_ne_zero {m : Magnitude} (nonzero : m.units ≠ 0) :
    ∃ n k, Spelling m.display n ∧ n.toDecimal = m.shortest.shifted k := by
  rw [display, if_neg nonzero]
  exact m.shortest.exists_spelling

/-- A displayed magnitude spells a number that is read as the magnitude. -/
theorem Magnitude.exists_spelling (m : Magnitude) :
    ∃ n, Spelling m.display n ∧ n.magnitude? = some m := by
  by_cases zero : m.units = 0
  · have digit : Digits ['0'] := digits_ofNat 0
    rw [display, if_pos zero]
    refine ⟨_, .places digit digit, ?_⟩
    show some Magnitude.zero = some m
    exact congrArg some (Magnitude.ext zero.symm)
  · obtain ⟨n, k, spelled, same⟩ := exists_spelling_of_ne_zero zero
    refine ⟨n, spelled, ?_⟩
    rw [Numeral.magnitude?, same, Decimal.magnitude?_shifted, m.magnitude?_shortest]

/-- **Every double is read off its display.** -/
theorem Binary64.ofText?_display (b : Binary64) : Binary64.ofText? b.display = some b := by
  cases b with
  | finite negative m =>
      obtain ⟨n, spelled, same⟩ := m.exists_spelling
      show ofText? (Text.signed negative m.display) = _
      rw [ofText?_signed spelled.numeric spelled.ofText?, same]
      rfl
  | infinite negative =>
      cases negative with
      | false => decide +kernel
      | true => decide +kernel
  | nan => decide +kernel

/-- Doubles are told apart by their displays. -/
theorem Binary64.display_injective {a b : Binary64} (h : a.display = b.display) : a = b := by
  have read := a.ofText?_display
  rw [h, b.ofText?_display] at read
  exact (Option.some.inj read).symm

/-- The characters of displays. -/
theorem Binary64.mem_display {b : Binary64} {c : Char} (h : c ∈ b.display) :
    IsNumeric c ∨ c ∈ "infa".toList := by
  have words : ("inf".toList ++ "-inf".toList ++ "nan".toList).all
      (fun c => c = '-' || "infa".toList.contains c) = true := by decide
  have word {c : Char} (h : c ∈ "inf".toList ++ "-inf".toList ++ "nan".toList) :
      IsNumeric c ∨ c ∈ "infa".toList := by
    rcases Bool.or_eq_true_iff.mp (List.all_eq_true.mp words c h) with minus | letter
    · rw [of_decide_eq_true minus]
      exact .inl (.inr (by decide))
    · exact .inr (List.contains_iff_mem.mp letter)
  cases b with
  | finite negative m =>
      obtain ⟨n, spelled, -⟩ := m.exists_spelling
      exact .inl (spelled.numeric.signed_chars negative c h)
  | infinite negative =>
      refine word (List.mem_append_left _ ?_)
      cases negative with
      | false => exact List.mem_append_left _ h
      | true => exact List.mem_append_right _ h
  | nan => exact word (List.mem_append_right _ h)

/-! ### Integers -/

namespace Text

theorem isDigit_of_mem_ofNat {n : Nat} {c : Char} (h : c ∈ ofNat n) : c.isDigit = true :=
  (digits_ofNat n).isDigit c h

theorem ofNat_injective {m n : Nat} (h : ofNat m = ofNat n) : m = n := by
  rw [← toNat_ofNat m, h, toNat_ofNat]

theorem mem_ofInt {n : Int} {c : Char} (h : c ∈ ofInt n) : c.isDigit = true ∨ c = '-' := by
  cases n with
  | ofNat n => exact .inl (isDigit_of_mem_ofNat h)
  | negSucc n =>
      rcases List.mem_cons.mp h with rfl | h
      · exact .inr rfl
      · exact .inl (isDigit_of_mem_ofNat h)

/-- A natural number is not written like a negative one. -/
theorem ofNat_ne_cons_minus {n : Nat} {t : Text} : ofNat n ≠ '-' :: t := by
  intro h
  have minus : '-' ∈ ofNat n := h ▸ List.mem_cons_self
  exact absurd (isDigit_of_mem_ofNat minus) (by decide)

/-- Integers are told apart by their digits and sign. -/
theorem ofInt_injective {m n : Int} (h : ofInt m = ofInt n) : m = n := by
  cases m with
  | ofNat m =>
      cases n with
      | ofNat n => exact congrArg Int.ofNat (ofNat_injective h)
      | negSucc n => exact absurd h ofNat_ne_cons_minus
  | negSucc m =>
      cases n with
      | ofNat n => exact absurd h.symm ofNat_ne_cons_minus
      | negSucc n =>
          have successors := ofNat_injective (List.cons.inj h).2
          exact congrArg Int.negSucc (Nat.succ.inj successors)

end Text

end LoxLexis
