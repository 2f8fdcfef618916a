import LoxLexis.Number.Binary64
import LoxLexis.Text.Basic

/-!
# Decimal fractions and the nearest double

A decimal is a natural number of `10ᵉ`.  This file reads one as a double, and finds for a double
the decimal of fewest digits that is read as that same double.

## Main definitions

* `digitCount` — how many decimal digits a number is written with
* `Decimal` — a digit number and a power of ten
* `Decimal.magnitude?` — the double magnitude nearest to a decimal
* `Magnitude.exact` — the decimal equal to a magnitude
* `Magnitude.shortest` — the decimal of fewest digits that reads back, the nearest of those

## Design notes

A unit `2⁻¹⁰⁷⁴` is `5¹⁰⁷⁴` units of `10⁻¹⁰⁷⁴`, so every magnitude is a decimal, and the search
for the shortest one only drops digits from it.  With `k` digits dropped two candidates remain, the
neighbours of the value on the grid of multiples of `10ᵏ⁻¹⁰⁷⁴`.  Whether a candidate reads back is
decided by reading it, so the search needs no interval arithmetic, and with nothing dropped it
ends at the value itself.
-/

namespace LoxLexis

/-- The number of digits a number is written with in base ten; zero has one. -/
def digitCount (n : Nat) : Nat := (Text.ofNat n).length

theorem digitCount_pos (n : Nat) : 0 < digitCount n := by
  simpa [digitCount, Text.ofNat] using Nat.length_toDigits_pos

/-- A number has at most `k` digits when it lies below `10ᵏ`. -/
theorem digitCount_le_iff {n k : Nat} (hk : 0 < k) : digitCount n ≤ k ↔ n < 10 ^ k :=
  Nat.length_toDigits_le_iff (by decide) hk

/-- A number lies below the power of ten that has one digit more. -/
theorem lt_ten_pow_digitCount (n : Nat) : n < 10 ^ digitCount n :=
  (digitCount_le_iff (digitCount_pos n)).mp (Nat.le_refl _)

/-- A positive number is at least the power of ten of as many digits. -/
theorem ten_pow_digitCount_le {n : Nat} (hn : 0 < n) : 10 ^ (digitCount n - 1) ≤ n := by
  rcases Nat.eq_zero_or_pos (digitCount n - 1) with h | h
  · rw [h]
    exact hn
  · refine Nat.le_of_not_lt fun hlt => ?_
    have := (digitCount_le_iff h).mpr hlt
    omega

/-- The number `digits · 10 ^ exponent`. -/
structure Decimal where
  digits : Nat
  /-- The power of ten they count. -/
  exponent : Int
  deriving DecidableEq

namespace Decimal

/-- The decimal exponent of the power of ten just above a decimal. -/
def ceilingExponent (d : Decimal) : Int := d.exponent + digitCount d.digits

/-- The magnitude nearest to a decimal, a tie going to the even significand; `none` when that is
beyond the finite range.  A decimal below `10⁻³²⁴` is nearer to zero than to the least unit, and
one from `10³⁰⁹` on overflows, so powers of ten are only formed between these bounds. -/
def magnitude? (d : Decimal) : Option Magnitude :=
  if d.digits = 0 ∨ d.ceilingExponent < -323 then some .zero
  else if 309 < d.ceilingExponent then none
  else
    match d.exponent with
    | .ofNat e => Magnitude.ofRatio? (d.digits * 10 ^ e) 1
    | .negSucc e => Magnitude.ofRatio? d.digits (10 ^ (e + 1))

/-- The same number without trailing zero digits. -/
def stripped (d : Decimal) : Decimal :=
  if _ : d.digits ≠ 0 ∧ d.digits % 10 = 0 then
    stripped { digits := d.digits / 10, exponent := d.exponent + 1 }
  else d
termination_by d.digits
decreasing_by omega

end Decimal

namespace Magnitude

/-- The decimal equal to a magnitude. -/
def exact (m : Magnitude) : Decimal where
  digits := m.units * 5 ^ (1074 : Nat)
  exponent := -1074

/-- The neighbour of a magnitude from below among the multiples of `10ᵏ⁻¹⁰⁷⁴`. -/
def gridBelow (m : Magnitude) (k : Nat) : Decimal where
  digits := m.exact.digits / 10 ^ k
  exponent := m.exact.exponent + k

/-- The neighbour of a magnitude from above among the multiples of `10ᵏ⁻¹⁰⁷⁴`. -/
def gridAbove (m : Magnitude) (k : Nat) : Decimal where
  digits := m.exact.digits / 10 ^ k + 1
  exponent := m.exact.exponent + k

/-- Of a magnitude's two neighbours on a grid the nearer one, a tie going to the even one. -/
def gridNearest (m : Magnitude) (k : Nat) : Decimal where
  digits := roundHalfEven m.exact.digits (10 ^ k)
  exponent := m.exact.exponent + k

/-- A decimal reads back when it is read as the magnitude. -/
def readBack (m : Magnitude) (d : Decimal) : Bool := d.magnitude? = some m

/-- The decimal that reads back among the neighbours on a grid: the nearer one if it does. -/
def onGrid? (m : Magnitude) (k : Nat) : Option Decimal :=
  [m.gridNearest k, m.gridBelow k, m.gridAbove k].find? m.readBack

/-- The decimal that reads back with the most digits dropped, at most `k` of them. -/
def dropping (m : Magnitude) : Nat → Decimal
  | 0 => m.exact
  -- The coarser grid goes first: a candidate on it has fewer digits.
  | k + 1 => (m.onGrid? (k + 1)).getD (m.dropping k)

@[simp] theorem dropping_zero (m : Magnitude) : m.dropping 0 = m.exact := rfl

theorem dropping_succ (m : Magnitude) (k : Nat) :
    m.dropping (k + 1) = (m.onGrid? (k + 1)).getD (m.dropping k) := rfl

/-- The decimal of fewest digits that reads back; of those, the one nearest to the magnitude. -/
def shortest (m : Magnitude) : Decimal :=
  (m.dropping (digitCount m.exact.digits - 1)).stripped

end Magnitude

end LoxLexis
