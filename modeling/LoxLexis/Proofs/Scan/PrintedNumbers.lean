import LoxLexis.Proofs.Number.Significant
import LoxLexis.Proofs.Scan.Numbers
import Mathlib

/-!
# Numbers printed and scanned again

A number that a scan has found is printed with its token, as short as a text can be that is read as
the same double.  Where the digits stand in their places the printed text is a number of the grammar,
so it is scanned again as one number, and as the same; an exponent is beyond the grammar.

## Main definitions

* `PrintsBack` — what is printed of a number with its token can be read

## Main statements

* `Magnitude.exists_shown` — what is displayed spells a number that is read as the magnitude, and has
  no exponent if its first digit is near enough to the point
* `Magnitude.scan_display` — what is printed without an exponent is scanned as that number alone
* `scan_numbers_print_back` — the finite numbers of scans print back
-/

namespace LoxLexis

namespace Decimal

variable {d : Decimal}

/-- The power of ten that the first digit counts is the one just below the number. -/
theorem eq_leadingExponent {e : ℤ} (nonzero : d.digits ≠ 0) (low : (10 : ℚ) ^ e ≤ d.toRat)
    (high : d.toRat < 10 ^ (e + 1)) : e = d.leadingExponent := by
  have below : (10 : ℚ) ^ d.leadingExponent < 10 ^ (e + 1) := (le_toRat nonzero).trans_lt high
  have above : (10 : ℚ) ^ e < 10 ^ d.ceilingExponent := low.trans_lt d.toRat_lt
  rw [zpow_lt_zpow_iff_right₀ (by norm_num)] at below above
  rw [leadingExponent] at below ⊢
  omega

theorem isPositional_iff (nonzero : d.digits ≠ 0) :
    d.isPositional = true ↔
      ∃ e : ℤ, -4 ≤ e ∧ e < 16 ∧ (10 : ℚ) ^ e ≤ d.toRat ∧ d.toRat < 10 ^ (e + 1) := by
  rw [isPositional, Bool.and_eq_true, decide_eq_true_eq, decide_eq_true_eq]
  constructor
  · rintro ⟨low, high⟩
    refine ⟨d.leadingExponent, low, high, le_toRat nonzero, ?_⟩
    rw [leadingExponent, Int.sub_add_cancel]
    exact d.toRat_lt
  · rintro ⟨e, low, high, above, below⟩
    rw [← eq_leadingExponent nonzero above below]
    exact ⟨low, high⟩

theorem exponent_notMem_positional (d : Decimal) : 'e' ∉ d.positional := by
  have free {ds : Text} (h : Digits ds) : 'e' ∉ ds := fun he => absurd (h.isDigit _ he) (by decide)
  obtain ⟨digits, exponent⟩ := d
  match exponent with
  | .ofNat e =>
    show 'e' ∉ Text.ofNat digits ++ List.replicate e '0' ++ ['.', '0']
    rw [List.mem_append, not_or]
    exact ⟨free ((digits_ofNat digits).append_zeros e), by decide⟩
  | .negSucc e =>
    have padded := free ((digits_ofNat digits).zeros_append (e + 2 - (Text.ofNat digits).length))
    show 'e' ∉ List.take _ _ ++ '.' :: List.drop _ _
    rw [List.mem_append, List.mem_cons, not_or, not_or]
    exact ⟨fun h => padded (List.take_subset _ _ h), by decide,
      fun h => padded (List.drop_subset _ _ h)⟩

theorem exponent_mem_scientific (d : Decimal) : 'e' ∈ d.scientific := by
  rw [scientific]
  exact List.mem_append_right _ List.mem_cons_self

end Decimal

namespace Magnitude

variable {m : Magnitude}

theorem digits_shortest_ne_zero (nonzero : m ≠ .zero) : m.shortest.digits ≠ 0 := by
  intro zero
  have reads := m.magnitude?_shortest
  rw [Decimal.magnitude?, if_pos (.inl zero)] at reads
  exact nonzero (Option.some.inj reads).symm

/-- **A display spells a number that is read as the magnitude, and has no exponent if that number is
zero or its first digit is near enough to the point.** -/
theorem exists_shown (m : Magnitude) :
    ∃ n : Numeral, Numeral.ofText? m.display = some n ∧ n.magnitude? = some m ∧
      ('e' ∉ m.display ↔ n.toDecimal.toRat = 0 ∨
        ∃ e : ℤ, -4 ≤ e ∧ e < 16 ∧ (10 : ℚ) ^ e ≤ n.toDecimal.toRat ∧
          n.toDecimal.toRat < 10 ^ (e + 1)) := by
  by_cases zero : m = .zero
  · subst zero
    refine ⟨⟨['0'], ['0'], 0⟩, by decide, rfl, iff_of_true (by decide) (.inl ?_)⟩
    exact zero_mul _
  · have units : m.units ≠ 0 := fun none => zero (Magnitude.ext none)
    have digits := digits_shortest_ne_zero zero
    obtain ⟨n, k, spelled, same⟩ := exists_spelling_of_ne_zero units
    have value : n.toDecimal.toRat = m.shortest.toRat := by
      rw [same, Decimal.toRat_shifted]
    have positive : n.toDecimal.toRat ≠ 0 := by
      rw [value]
      exact ((zpow_pos (by norm_num) _).trans_le (Decimal.le_toRat digits)).ne'
    refine ⟨n, spelled.ofText?, ?_, ?_⟩
    · rw [Numeral.magnitude?, same, Decimal.magnitude?_shifted, m.magnitude?_shortest]
    · rw [or_iff_right positive, value, ← Decimal.isPositional_iff digits, display, if_neg units,
        Decimal.display]
      by_cases places : m.shortest.isPositional = true
      · rw [if_pos places]
        exact iff_of_true (Decimal.exponent_notMem_positional _) places
      · rw [if_neg places]
        exact iff_of_false (not_not.mpr (Decimal.exponent_mem_scientific _)) places

/-- A display without an exponent is a number of the grammar. -/
theorem lexeme_display (fixed : 'e' ∉ m.display) : Lexeme (.token .number) m.display := by
  obtain ⟨n, spelled, -⟩ := m.exists_spelling
  generalize m.display = t at fixed spelled ⊢
  cases spelled with
  | places whole fraction => exact .decimal whole fraction
  | bare whole e => exact absurd (List.mem_append_right _ List.mem_cons_self) fixed
  | point whole fraction e =>
      refine absurd (List.mem_append_right _ (List.mem_cons_of_mem _ ?_)) fixed
      exact List.mem_append_right _ List.mem_cons_self

/-- **What is printed without an exponent is scanned as that number alone.** -/
theorem scan_display (fixed : 'e' ∉ m.display) :
    Scan.of m.display =
      { tokens := [⟨.number, m.display, some (.number (.finite false m)), 1⟩, .endOfFile 1]
        reports := [] } := by
  have lexeme := lexeme_display fixed
  have read : Binary64.ofText? m.display = some (.finite false m) :=
    Binary64.ofText?_display (.finite false m)
  rw [Binary64.ofText?_of_lexeme lexeme] at read
  rw [Scan.of_number lexeme, Token.ofNumber, Option.some.inj read]

end Magnitude

/-- What is printed of a number with its token can be read: it spells a number that the double is the
correct rounding of. -/
structure PrintsBack (t : Token) (m : Magnitude) (shown : Numeral) : Prop where
  /-- After the kind and the lexeme the number is printed, -/
  printed : t.display = t.kind.name ++ ' ' :: t.lexeme ++ ' ' :: m.display
  spells : Numeral.ofText? m.display = some shown
  rounds : Binary64.Rounds shown.toDecimal.toRat (.finite false m)
  /-- and is read as the same double, -/
  readBack : Binary64.ofText? m.display = some (.finite false m)
  /-- as is no text of fewer significant digits. -/
  fewest : ∀ t, Binary64.ofText? t = some (.finite false m) →
    (Text.significant m.display).length ≤ (Text.significant t).length
  /-- There is no exponent if the number is zero or its first digit is near enough to the point, -/
  fixed_iff : 'e' ∉ m.display ↔ shown.toDecimal.toRat = 0 ∨
    ∃ e : ℤ, -4 ≤ e ∧ e < 16 ∧ (10 : ℚ) ^ e ≤ shown.toDecimal.toRat ∧
      shown.toDecimal.toRat < 10 ^ (e + 1)
  /-- and then scanning what is printed finds this number, and nothing else. -/
  scans : 'e' ∉ m.display → Scan.of m.display =
    { tokens := [⟨.number, m.display, some (.number (.finite false m)), 1⟩, .endOfFile 1]
      reports := [] }

/-- **The finite numbers of scans print back.** -/
theorem scan_numbers_print_back (n : FoundNumber) {negative : Bool} {m : Magnitude}
    (finite : n.token.literal = some (.number (.finite negative m))) :
    negative = false ∧ ∃ shown, PrintsBack n.token m shown := by
  have unsigned : negative = false := by
    rw [n.literal_eq] at finite
    obtain infinite | ⟨m', number⟩ := n.rounds.unsigned
    · rw [infinite] at finite
      cases finite
    · rw [number] at finite
      cases finite
      rfl
  subst unsigned
  obtain ⟨shown, spells, reads, fixed⟩ := m.exists_shown
  have rounds := shown.toDecimal.rounds_magnitude?
  rw [show shown.toDecimal.magnitude? = some m from reads] at rounds
  exact ⟨rfl, shown, {
    printed := by
      rw [Token.display, finite]
      rfl
    spells
    rounds
    readBack := Binary64.ofText?_display (.finite false m)
    fewest := fun t => m.length_significant_display_le
    fixed_iff := fixed
    scans := Magnitude.scan_display }⟩

/-- A lexeme of many digits for the double that is printed with one. -/
theorem scan_numbers_print_back_tenth :
    ∃ (n : FoundNumber) (m : Magnitude), n.token.lexeme = "0.10000000000000000555".toList ∧
      n.token.literal = some (.number (.finite false m)) ∧ m.display = "0.1".toList ∧
      ∃ shown, PrintsBack n.token m shown := by
  have whole : Digits "0".toList := ⟨by decide, List.all_eq_true.mp (by decide)⟩
  have fraction : Digits "10000000000000000555".toList :=
    ⟨by decide +kernel, List.all_eq_true.mp (by decide +kernel)⟩
  let n : FoundNumber := .ofLexeme (.decimal whole fraction)
  have lexeme : n.token.lexeme = "0.10000000000000000555".toList := by
    show "0".toList ++ '.' :: "10000000000000000555".toList = _
    decide +kernel
  let m : Magnitude := {
    units := 3602879701896397 * 2 ^ (1019 : ℕ)
    aligned := by decide +kernel
    bounded := by decide +kernel }
  have literal : n.token.literal = some (.number (.finite false m)) := by
    rw [n.literal_eq, lexeme]
    decide +kernel
  exact ⟨n, m, lexeme, literal, by decide +kernel, (scan_numbers_print_back n literal).2⟩

end LoxLexis
