import LoxLexis.Proofs.Number.Value
import LoxLexis.Proofs.Scan.Lines
import LoxLexis.Proofs.Token.QuotedForm
import Mathlib

/-!
# The numbers of a scan

The number that a lexeme denotes is said here by its digits alone: the ones before the point, and
the ones after it as a fraction.  Every number that a scan finds has the nearest double of that for
its literal, however many digits there are, and so nothing but the value of a lexeme matters to its
literal: not the zeros in front of it or at its end, nor a point with only zeros after it.

## Main definitions

* `Text.toRat` — the number that digits denote, with a point among them or without one
* `Text.Padded` — zeros added where they do not matter
* `FoundNumber` — a number that some scan has found

## Main statements

* `FoundNumber.literal_eq` — the literal of a number is read from its lexeme
* `Scan.of_number` — a source that is a number by itself scans to that number alone
* `scan_rounds_numbers` — the numbers of scans are correctly rounded
-/

namespace LoxLexis

/-! ### What digits denote -/

namespace Text

/-- The number that digits denote, with the digits after a point as its fraction. -/
def toRat (t : Text) : ℚ :=
  let whole := t.takeWhile Char.isDigit
  let fraction := (t.dropWhile Char.isDigit).drop 1
  toNat whole + toNat fraction / 10 ^ fraction.length

/-- Zeros added where they do not matter. -/
inductive Padded (t : Text) : Text → Prop
  | front (k : ℕ) : Padded t (List.replicate k '0' ++ t)
  | behind (h : '.' ∈ t) (k : ℕ) : Padded t (t ++ List.replicate k '0')
  /-- The point is not yet there. -/
  | point (h : '.' ∉ t) (k : ℕ) : Padded t (t ++ '.' :: List.replicate k '0')

theorem toRat_whole {ds : Text} (h : ∀ c ∈ ds, c.isDigit = true) : toRat ds = toNat ds := by
  rw [toRat, takeWhile_of_forall h, dropWhile_of_forall h]
  simp [toNat]

theorem toRat_point {ds : Text} (h : ∀ c ∈ ds, c.isDigit = true) (es : Text) :
    toRat (ds ++ '.' :: es) = toNat ds + toNat es / 10 ^ es.length := by
  have point : ('.' :: es).head?.any Char.isDigit = false := rfl
  rw [toRat, takeWhile_append_of_head h point, dropWhile_append_of_head h point]
  rfl

/-- **Zeros added where they do not matter leave the number as it is.** -/
theorem Padded.toRat_eq {t u : Text} (h : Padded t u) (number : Lexeme (.token .number) t) :
    toRat u = toRat t := by
  have zeros {k : ℕ} : ∀ c ∈ List.replicate k '0', c.isDigit = true := fun _ => isDigit_of_mem_zeros
  have digits {ds : Text} (h : Digits ds) (k : ℕ) :
      ∀ c ∈ List.replicate k '0' ++ ds, c.isDigit = true := (h.zeros_append k).isDigit
  have nothing (k : ℕ) : toNat (List.replicate k '0') = 0 := by
    have := toNat_zeros_append k []
    rwa [List.append_nil] at this
  rcases number.number_cases with whole | ⟨ds, es, hds, hes, rfl⟩
  · cases h with
    | front k => rw [toRat_whole (digits whole k), toRat_whole whole.isDigit, toNat_zeros_append]
    | behind h k => exact absurd h whole.point_notMem
    | point h k => rw [toRat_point whole.isDigit, toRat_whole whole.isDigit, nothing]; simp
  · cases h with
    | front k =>
        rw [← List.append_assoc, toRat_point (digits hds k), toRat_point hds.isDigit,
          toNat_zeros_append]
    | behind h k =>
        have tens : (10 : ℚ) ^ k ≠ 0 := by positivity
        rw [List.append_assoc, List.cons_append, toRat_point hds.isDigit, toRat_point hds.isDigit,
          toNat_append_zeros, List.length_append, List.length_replicate, pow_add, Nat.cast_mul,
          Nat.cast_pow, Nat.cast_ofNat, mul_div_mul_right _ _ tens]
    | point h k => exact absurd (List.mem_append_right _ List.mem_cons_self) h

end Text

/-- Reading a plain numeral loses nothing of the number it denotes. -/
theorem Numeral.toRat_plain (t : Text) : (plain t).toDecimal.toRat = t.toRat := by
  have tens (n : ℕ) : (10 : ℚ) ^ n ≠ 0 := by positivity
  rw [Decimal.toRat, toDecimal, Text.toNat_append]
  simp only [plain, zero_sub, zpow_neg, zpow_natCast]
  rw [Nat.cast_add, add_mul, Nat.cast_mul, Nat.cast_pow, Nat.cast_ofNat, mul_assoc,
    mul_inv_cancel₀ (tens _), mul_one]
  rfl

/-! ### Numbers found -/

/-- A number has digits for its lexeme and is read from them. -/
theorem Content.Found.of_number {c : Content} (found : c.Found) (number : c.kind = .number) :
    Lexeme (.token .number) c.lexeme ∧ c.literal = some (.number (.ofPlain c.lexeme)) := by
  cases found with
  | word w =>
      obtain ⟨kind, lexeme, wellFormed⟩ := w
      obtain rfl : kind = .number := number
      exact ⟨wellFormed, rfl⟩
  | endOfFile => cases number

/-- A number that some scan has found. -/
structure FoundNumber where
  token : Token
  emitted : token.Emitted
  isNumber : token.kind = .number

namespace FoundNumber

/-- The number that the lexeme denotes. -/
def value (n : FoundNumber) : ℚ := n.token.lexeme.toRat

theorem found (n : FoundNumber) : Lexeme (.token .number) n.token.lexeme ∧
    n.token.literal = some (.number (.ofPlain n.token.lexeme)) :=
  n.emitted.found.of_number n.isNumber

/-- **The literal of a number is read from its lexeme.** -/
theorem literal_eq (n : FoundNumber) :
    n.token.literal = some (.number (.ofPlain n.token.lexeme)) := n.found.2

theorem rounds (n : FoundNumber) : Binary64.Rounds n.value (.ofPlain n.token.lexeme) := by
  rw [value, ← Numeral.toRat_plain]
  exact Decimal.rounds_magnitude? _

theorem eq_of_value {n n' : FoundNumber} (h : n.value = n'.value) :
    Binary64.ofPlain n.token.lexeme = .ofPlain n'.token.lexeme := by
  rw [value, value, ← Numeral.toRat_plain, ← Numeral.toRat_plain] at h
  exact congrArg (Binary64.ofMagnitude? false) (Decimal.magnitude?_congr h)

end FoundNumber

/-! ### Numbers by themselves -/

/-- The token of a number that is the first of its source. -/
def Token.ofNumber (t : Text) : Token where
  kind := .number
  lexeme := t
  literal := some (.number (.ofPlain t))
  line := 1

/-- **A source that is a number by itself scans to that number alone.** -/
theorem Scan.of_number {t : Text} (h : Lexeme (.token .number) t) :
    Scan.of t = { tokens := [.ofNumber t, .endOfFile 1], reports := [] } := by
  have alone : segments t = [{ text := t, form := .token .number }] := by
    refine segments_eq_iff.mpr ⟨by simp, .lexeme h, ?_, tiles_nil []⟩
    exact Segment.continues_nil _
  have line : Text.lineFeeds t = 0 := h.lineFeeds_eq_zero (by decide)
  rw [Scan.of_eq, alone, tokensFrom_cons, tokensFrom_nil, reportsFrom_cons, reportsFrom_nil, line]
  simp only [Segment.token?, Segment.report?]
  rfl

/-- A number by itself is found. -/
def FoundNumber.ofLexeme {t : Text} (h : Lexeme (.token .number) t) : FoundNumber where
  token := .ofNumber t
  emitted := .mk Reporter.keep (Scanner.new t) [] <| by
    have found : Token.ofNumber t ∈ (Scan.of t).tokens := by
      rw [Scan.of_number h]
      exact List.mem_cons_self
    exact found
  isNumber := rfl

/-! ### Correct rounding -/

/-- **The numbers of scans are correctly rounded.**  Nothing but the value of a lexeme matters to the
literal, and a greater value does not have a smaller one. -/
theorem scan_rounds_numbers :
    (∀ n : FoundNumber, Lexeme (.token .number) n.token.lexeme ∧
      ∃ b, n.token.literal = some (.number b) ∧ Binary64.Rounds n.value b) ∧
    (∀ n n' : FoundNumber, n.value = n'.value → n.token.literal = n'.token.literal) ∧
    (∀ n n' : FoundNumber, Text.Padded n.token.lexeme n'.token.lexeme →
      n'.token.literal = n.token.literal) ∧
    ∀ (n n' : FoundNumber) (b b' : Binary64), n.token.literal = some (.number b) →
      n'.token.literal = some (.number b') → n.value ≤ n'.value → b.AtMost b' := by
  have same {n n' : FoundNumber} (h : n.value = n'.value) : n.token.literal = n'.token.literal := by
    rw [n.literal_eq, n'.literal_eq, FoundNumber.eq_of_value h]
  refine ⟨fun n => ⟨n.found.1, _, n.literal_eq, n.rounds⟩, fun n n' => same, fun n n' padded => ?_,
    fun n n' b b' hb hb' le => ?_⟩
  · exact same (padded.toRat_eq n.found.1)
  · rw [n.literal_eq] at hb
    rw [n'.literal_eq] at hb'
    cases hb
    cases hb'
    rcases le.lt_or_eq with less | equal
    · exact n.rounds.atMost n'.rounds less
    · rw [FoundNumber.eq_of_value equal]
      exact .refl _

/-- A number halfway between two doubles, and once more with zeros that do not matter: both are
rounded to the even one below. -/
theorem scan_rounds_numbers_tie :
    ∃ n n' : FoundNumber, n.token.lexeme = "9007199254740993".toList ∧
      n'.token.lexeme = "9007199254740993.00".toList ∧ n.value = n'.value ∧
      n'.token.literal = n.token.literal ∧ ∃ b, n.token.literal = some (.number b) ∧
      b.AtMost b ∧ Binary64.Rounds (2 ^ 53 + 1) b ∧ b.toRat? = some (2 ^ 53) := by
  have whole : Digits "9007199254740993".toList :=
    ⟨by decide +kernel, List.all_eq_true.mp (by decide +kernel)⟩
  have zeros : Digits "00".toList := ⟨by decide +kernel, List.all_eq_true.mp (by decide +kernel)⟩
  let n : FoundNumber := .ofLexeme (.whole whole)
  let n' : FoundNumber := .ofLexeme (.decimal whole zeros)
  have value : n.value = 2 ^ 53 + 1 := by
    show Text.toRat "9007199254740993".toList = _
    decide +kernel
  have padded : Text.Padded n.token.lexeme n'.token.lexeme := .point whole.point_notMem 2
  have same : n.value = n'.value := (padded.toRat_eq (.whole whole)).symm
  obtain ⟨rounded, equal, padding, monotone⟩ := scan_rounds_numbers
  obtain ⟨-, b, literal, rounds⟩ := rounded n
  have literal' : n'.token.literal = some (.number b) := (equal n n' same).symm.trans literal
  have lexeme : n'.token.lexeme = "9007199254740993.00".toList := by
    show "9007199254740993".toList ++ '.' :: "00".toList = _
    decide +kernel
  refine ⟨n, n', rfl, lexeme, same, padding n n' padded, b, literal, ?_, value ▸ rounds, ?_⟩
  · exact monotone n n' b b literal literal' same.le
  · rw [n.literal_eq] at literal
    obtain rfl := Literal.number.inj (Option.some.inj literal)
    show Binary64.toRat? (.ofPlain "9007199254740993".toList) = _
    decide +kernel

end LoxLexis
