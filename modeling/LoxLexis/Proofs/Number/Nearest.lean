import LoxLexis.Proofs.Number.Rounding
import Mathlib

/-!
# The nearest double

A finite double is a rational number, and the numbers that doubles are can be told without any
double: an integer of at most 53 binary digits, times a power of two that is not too small and not
too large.  A double is the correct rounding of a number if it is nearest among these.  Nothing but
the exponent range distinguishes that from rounding to 53 digits: at its upper end a number may
overflow, and at its lower end digits are lost.

## Main definitions

* `Magnitude.toRat`, `Binary64.toRat?` — the number that a magnitude is, and that a double is
* `Binary64.Holds`, `Binary64.EvenSignificand` — the numbers of the format, and those among them
  that ties go to
* `Binary64.Rounds` — a double is the correct rounding of a number

## Main statements

* `Binary64.rounds_ofRatio?` — the quotient of two numbers is read as the nearest double
-/

namespace LoxLexis

/-! ### Doubles as numbers -/

/-- The least positive double. -/
def Magnitude.unit : ℚ := 2 ^ (-1074 : ℤ)

/-- The number that a magnitude is. -/
def Magnitude.toRat (m : Magnitude) : ℚ := m.units * unit

namespace Binary64

/-- A number written as an integer of at most 53 binary digits times a power of two within the
range of the format. -/
structure Written (y : ℚ) (k e : ℤ) : Prop where
  value : y = k * 2 ^ e
  digits : |k| < 2 ^ 53
  low : -1074 ≤ e
  high : e ≤ 971

/-- The numbers that some double is. -/
def Holds (y : ℚ) : Prop := ∃ k e, Written y k e

/-- The significand of a number, which has all 53 digits unless the exponent is the least one, is
even. -/
def EvenSignificand (y : ℚ) : Prop :=
  ∃ k e, Written y k e ∧ (2 ^ 52 ≤ |k| ∨ e = -1074) ∧ Even k

/-- The number that a finite double is. -/
def toRat? : Binary64 → Option ℚ
  | .finite negative m => some (if negative then -m.toRat else m.toRat)
  | .infinite _ => none
  | .nan => none

/-- A double is the correct rounding of a number that is not negative. -/
structure Rounds (q : ℚ) (b : Binary64) : Prop where
  /-- It has no sign, and is a number or too large for one. -/
  unsigned : b = .infinite false ∨ ∃ m, b = .finite false m
  /-- It is infinite from half a spacing beyond the greatest finite double on. -/
  infinite_iff : b = .infinite false ↔ 2 ^ 1024 - 2 ^ 970 ≤ q
  /-- It is zero up to half the least positive double. -/
  zero_iff : b = .finite false .zero ↔ q ≤ 2 ^ (-1075 : ℤ)
  /-- A finite one is one of the numbers of the format, -/
  holds : ∀ x, b.toRat? = some x → Holds x
  /-- and none of these is nearer, -/
  nearest : ∀ x, b.toRat? = some x → ∀ y, Holds y → |q - x| ≤ |q - y|
  /-- and where another is as near, its own significand is even. -/
  even : ∀ x, b.toRat? = some x → ∀ y, Holds y → y ≠ x → |q - y| = |q - x| → EvenSignificand x
  /-- A subnormal one is the nearest multiple of the least positive double. -/
  subnormal : ∀ x, b.toRat? = some x → x < 2 ^ (-1022 : ℤ) →
    (∃ n : ℕ, x = n * 2 ^ (-1074 : ℤ)) ∧ ∀ n : ℤ, |q - x| ≤ |q - n * 2 ^ (-1074 : ℤ)|

end Binary64

namespace Magnitude

theorem unit_pos : 0 < unit := by
  unfold unit
  positivity

theorem abs_sub_unit (q : ℚ) (v : ℚ) : |q - v * unit| = |q / unit - v| * unit := by
  rw [← abs_of_pos unit_pos, ← abs_mul, sub_mul, abs_of_pos unit_pos,
    div_mul_cancel₀ _ unit_pos.ne']

/-- A power of two from the unit on is a power of two of units. -/
theorem two_pow_mul_unit (n : ℕ) (e : ℤ) (h : e + 1074 = n) : (2 : ℚ) ^ n * unit = 2 ^ e := by
  rw [unit, ← zpow_natCast, ← zpow_add₀ two_ne_zero, ← h]
  congr 1
  omega

theorem lt_two_pow_iff {v n : ℕ} (hn : 0 < n) : v < 2 ^ n ↔ v.log2 < n := by
  rcases eq_or_ne v 0 with rfl | nonzero
  · simp [hn]
  · exact (Nat.log2_lt nonzero).symm

theorem units_lt (m : Magnitude) : m.units < 2 ^ (2098 : ℕ) :=
  (lt_two_pow_iff (n := 2098) (by decide)).mpr m.bounded

end Magnitude

namespace RoundsToDigits

open Magnitude Binary64

variable {q : ℚ} {r s : ℕ}

/-- A rounded number is written with its count of spacings, unless that has carried over. -/
theorem exists_written (h : RoundsToDigits (q / unit) r s) (bounded : r * 2 ^ s < 2 ^ (2098 : ℕ)) :
    ∃ k e : ℤ, Written ((r * 2 ^ s : ℕ) * unit) k e ∧ (2 ^ 52 ≤ |k| ∨ e = -1074) ∧
      (Even r → Even k) := by
  rcases h.count_le.lt_or_eq with short | rfl
  · refine ⟨r, s - 1074, ⟨?_, ?_, by omega, ?_⟩, ?_, fun even => (Int.even_coe_nat r).mpr even⟩
    · rw [← two_pow_mul_unit s _ (by ring)]
      push_cast
      ring
    · rw [Nat.abs_cast]
      exact_mod_cast short
    · rcases h.le_count with rfl | long
      · decide
      · have := add_spacing_lt long bounded
        omega
    · rcases h.le_count with rfl | long
      · exact .inr rfl
      · refine .inl ?_
        rw [Nat.abs_cast]
        exact_mod_cast long
  · refine ⟨2 ^ 52, s - 1073, ⟨?_, by decide, by omega, ?_⟩, .inl (by decide), fun _ => by decide⟩
    · rw [← two_pow_mul_unit (s + 1) _ (by push_cast; ring)]
      push_cast
      ring
    · have room : 2 ^ 52 * 2 ^ (s + 1) < 2 ^ (2098 : ℕ) := by
        rw [Nat.pow_succ 2 s, ← Nat.mul_assoc, Nat.mul_right_comm]
        exact bounded
      have := add_spacing_lt le_rfl room
      omega

end RoundsToDigits

namespace Binary64

open Magnitude

/-- A number of the format is a number of units of at most 53 digits, or that number's opposite. -/
theorem Holds.exists_units {y : ℚ} (h : Holds y) :
    ∃ k t : ℕ, k < 2 ^ 53 ∧ (y = (k * 2 ^ t : ℕ) * unit ∨ y = -((k * 2 ^ t : ℕ) * unit)) := by
  obtain ⟨k, e, rfl, digits, low, -⟩ := h
  obtain ⟨t, ht⟩ : ∃ t : ℕ, e + 1074 = t := ⟨(e + 1074).toNat, by omega⟩
  have power := two_pow_mul_unit t e ht
  rcases k.eq_nat_or_neg with ⟨n, rfl | rfl⟩
  · rw [Nat.abs_cast] at digits
    refine ⟨n, t, by exact_mod_cast digits, .inl ?_⟩
    rw [← power]
    push_cast
    ring
  · rw [abs_neg, Nat.abs_cast] at digits
    refine ⟨n, t, by exact_mod_cast digits, .inr ?_⟩
    rw [← power]
    push_cast
    ring

variable {q : ℚ} {r s : ℕ} {m : Magnitude}

theorem abs_sub_toRat (q : ℚ) (units : m.units = r * 2 ^ s) :
    |q - m.toRat| = |q / unit - r * 2 ^ s| * unit := by
  rw [toRat, abs_sub_unit, units]
  push_cast
  rfl

/-- A number of the format that is as near as zero has no sign. -/
theorem Holds.exists_units_of_near {y : ℚ} (h : Holds y) (near : |q - y| ≤ q) :
    ∃ k t : ℕ, k < 2 ^ 53 ∧ y = (k * 2 ^ t : ℕ) * unit := by
  obtain ⟨k, t, hk, rfl | rfl⟩ := h.exists_units
  · exact ⟨k, t, hk, rfl⟩
  · have nonneg : 0 ≤ ((k * 2 ^ t : ℕ) : ℚ) * unit := mul_nonneg (Nat.cast_nonneg _) unit_pos.le
    have zero : ((k * 2 ^ t : ℕ) : ℚ) * unit = 0 := by
      have := (le_abs_self _).trans near
      linarith
    exact ⟨0, 0, by decide, by rw [zero]; simp⟩

section

variable (h : RoundsToDigits (q / unit) r s) (units : m.units = r * 2 ^ s)
include h units

theorem toRat_nearest (nonneg : 0 ≤ q) {y : ℚ} (hy : Holds y) : |q - m.toRat| ≤ |q - y| := by
  have main {k : ℕ} (hk : k < 2 ^ 53) (t : ℕ) : |q - m.toRat| ≤ |q - (k * 2 ^ t : ℕ) * unit| := by
    rw [abs_sub_toRat q units, abs_sub_unit]
    exact mul_le_mul_of_nonneg_right (h.le_abs_sub hk t) unit_pos.le
  rcases le_total |q - y| q with near | far
  · obtain ⟨k, t, hk, rfl⟩ := hy.exists_units_of_near near
    exact main hk t
  · have zero := main (k := 0) (by decide) 0
    rw [Nat.zero_mul, Nat.cast_zero, zero_mul, sub_zero, abs_of_nonneg nonneg] at zero
    exact zero.trans far

theorem evenSignificand_toRat (nonneg : 0 ≤ q) {y : ℚ} (hy : Holds y) (differs : y ≠ m.toRat)
    (tie : |q - y| = |q - m.toRat|) : EvenSignificand m.toRat := by
  have zero := toRat_nearest h units nonneg (y := 0) ⟨0, 0, by simp, by decide, by decide, by decide⟩
  rw [sub_zero, abs_of_nonneg nonneg] at zero
  obtain ⟨k, t, hk, rfl⟩ := hy.exists_units_of_near (tie.trans_le zero)
  have bounded := m.units_lt
  rw [units] at bounded
  obtain ⟨k', e, written, normal, parity⟩ := h.exists_written bounded
  have even : Even r := by
    refine h.even_of_abs_sub_eq hk t (fun same => differs ?_) ?_
    · rw [same, toRat, units]
    · rw [abs_sub_unit, abs_sub_toRat q units] at tie
      exact mul_right_cancel₀ unit_pos.ne' tie
  rw [toRat, units]
  exact ⟨k', e, written, normal, parity even⟩

theorem holds_toRat : Holds m.toRat := by
  have bounded := m.units_lt
  rw [units] at bounded
  obtain ⟨k, e, written, -, -⟩ := h.exists_written bounded
  rw [toRat, units]
  exact ⟨k, e, written⟩

/-- Below the least number of 53 digits every multiple of the unit is a number of the format. -/
theorem toRat_subnormal (small : m.toRat < 2 ^ (-1022 : ℤ)) (n : ℤ) :
    |q - m.toRat| ≤ |q - n * unit| := by
  have spacing : s = 0 := by
    refine h.le_count.resolve_right fun long => small.not_ge ?_
    rw [toRat, units, ← two_pow_mul_unit 52 _ (by norm_num)]
    refine mul_le_mul_of_nonneg_right ?_ unit_pos.le
    exact_mod_cast long.trans (Nat.le_mul_of_pos_right r (Nat.two_pow_pos s))
  subst spacing
  rw [abs_sub_toRat q units, abs_sub_unit]
  refine mul_le_mul_of_nonneg_right ?_ unit_pos.le
  simpa using h.le_abs_sub_multiple n

end

/-! ### Correct rounding -/

theorem toRat?_of_finite {m : Magnitude} {x : ℚ} (h : toRat? (.finite false m) = some x) :
    x = m.toRat := (Option.some.inj h).symm

theorem toRat?_infinite_ne {negative : Bool} {x : ℚ} : toRat? (.infinite negative) ≠ some x := by
  intro h
  cases h

theorem finite_ne_infinite (m : Magnitude) : finite false m ≠ infinite false := by
  intro h
  cases h

theorem finite_eq_zero_iff : finite false m = finite false .zero ↔ m.units = 0 := by
  constructor
  · intro same
    exact congrArg Magnitude.units (Binary64.finite.inj same).2
  · intro zero
    exact congrArg (finite false) (Magnitude.ext zero)

section

variable (h : RoundsToDigits (q / unit) r s)
include h

/-- There is no room for what is rounded from half a spacing beyond the greatest double on. -/
theorem overflow_iff : 2 ^ (2098 : ℕ) ≤ r * 2 ^ s ↔ (2 : ℚ) ^ 1024 - 2 ^ 970 ≤ q := by
  have last : (2 : ℚ) ^ 2098 * unit = 2 ^ 1024 :=
    (two_pow_mul_unit 2098 1024 rfl).trans (zpow_ofNat 2 1024)
  have half : (2 : ℚ) ^ 2044 * unit = 2 ^ 970 :=
    (two_pow_mul_unit 2044 970 rfl).trans (zpow_ofNat 2 970)
  rw [h.two_pow_le_iff 2098 2044 rfl, le_div_iff₀ unit_pos, sub_mul, last, half]

/-- Nothing is left of what is rounded up to half the least positive double. -/
theorem underflow_iff : r * 2 ^ s = 0 ↔ q ≤ 2 ^ (-1075 : ℤ) := by
  have least : (2 : ℚ) ^ (-1075 : ℤ) = 1 / 2 * unit := by
    have next : (-1074 : ℤ) = -1075 + 1 := rfl
    rw [unit, next, zpow_add_one₀ two_ne_zero]
    ring
  rw [h.eq_zero_iff, div_le_iff₀ unit_pos, least]

theorem rounds_finite (nonneg : 0 ≤ q) (units : m.units = r * 2 ^ s) :
    Rounds q (.finite false m) where
  unsigned := .inr ⟨m, rfl⟩
  infinite_iff := by
    rw [← overflow_iff h, ← units]
    exact iff_of_false (finite_ne_infinite m) m.units_lt.not_ge
  zero_iff := by rw [← underflow_iff h, ← units, finite_eq_zero_iff]
  holds := fun x hx => toRat?_of_finite hx ▸ holds_toRat h units
  nearest := fun x hx y hy => toRat?_of_finite hx ▸ toRat_nearest h units nonneg hy
  even := fun x hx y hy differs tie => by
    obtain rfl := toRat?_of_finite hx
    exact evenSignificand_toRat h units nonneg hy differs tie
  subnormal := fun x hx small => by
    obtain rfl := toRat?_of_finite hx
    exact ⟨⟨_, rfl⟩, toRat_subnormal h units small⟩

theorem rounds_infinite (large : 2 ^ (2098 : ℕ) ≤ r * 2 ^ s) : Rounds q (.infinite false) where
  unsigned := .inl rfl
  infinite_iff := iff_of_true rfl ((overflow_iff h).mp large)
  zero_iff := by
    refine iff_of_false (finite_ne_infinite _).symm fun small => ?_
    have power : 0 < 2 ^ (2098 : ℕ) := Nat.two_pow_pos 2098
    exact (power.trans_le large).ne' ((underflow_iff h).mpr small)
  holds := fun _ hx => (toRat?_infinite_ne hx).elim
  nearest := fun _ hx => (toRat?_infinite_ne hx).elim
  even := fun _ hx => (toRat?_infinite_ne hx).elim
  subnormal := fun _ hx => (toRat?_infinite_ne hx).elim

end

theorem cast_scaled (num den n : ℕ) (h : (2 : ℚ) ^ n * unit = 1) :
    ((num * 2 ^ n : ℕ) / den : ℚ) = num / den / unit := by
  rw [eq_div_iff unit_pos.ne', Nat.cast_mul, Nat.cast_pow, Nat.cast_ofNat, div_mul_eq_mul_div,
    mul_assoc, h, mul_one]

/-- **The quotient of two numbers is read as the nearest double.** -/
theorem rounds_ofRatio? (num : ℕ) {den : ℕ} (hd : 0 < den) :
    Rounds (num / den) (.ofMagnitude? false (Magnitude.ofRatio? num den)) := by
  have nonneg : (0 : ℚ) ≤ num / den := by positivity
  have one : (2 : ℚ) ^ 1074 * unit = 1 := (two_pow_mul_unit 1074 0 rfl).trans (zpow_zero 2)
  obtain ⟨r, s, units, h⟩ := exists_roundsToDigits (num * 2 ^ (1074 : ℕ)) hd
  rw [cast_scaled num den 1074 one] at h
  rw [Magnitude.ofRatio?, nearest?]
  split
  · exact rounds_finite h nonneg units
  · next large =>
      refine rounds_infinite h (not_lt.mp ?_)
      rwa [← units, lt_two_pow_iff (n := 2098) (by decide)]

end Binary64

end LoxLexis
