/-!
# Binary64 numbers

A double is one of finitely many multiples of `2⁻¹⁰⁷⁴`, an infinity, or not a number.  A finite
magnitude is therefore kept as a natural number of such units together with the proof that the
format holds it, and rounding is exact arithmetic on natural numbers: no machine number occurs
here.

## Main definitions

* `Magnitude` — a nonnegative finite double, counted in units of `2⁻¹⁰⁷⁴`
* `roundHalfEven` — the integer nearest to a quotient, a tie going to the even one
* `Magnitude.nearest?` — the magnitude nearest to a quotient of units
* `Binary64` — a double: signed magnitude, signed infinity, or not a number
* `Binary64.numericallyEqual` — equality of doubles as numbers

## Design notes

Between `2ᵏ` and `2ᵏ⁺¹` units the format keeps the multiples of `2ᵏ⁻⁵²`, and below `2⁵³` units
it keeps everything.  The truncated subtraction in `k - 52` covers both, so subnormal numbers need
no case of their own.  Equal doubles are structurally equal, with the two zeros apart; equality as
numbers, which joins the zeros and rejects what is not a number, is a separate function.
-/

namespace LoxLexis

-- Powers are those of the natural numbers themselves, here and wherever this module is imported, also
-- beside a library that brings its own; a literal exponent has its type written out for the same reason.
attribute [instance (high)] instPowNat

/-- The integer nearest to `num / den`; of two equally near ones, the even one. -/
def roundHalfEven (num den : Nat) : Nat :=
  let below := num / den
  let excess := 2 * (num % den)
  if excess < den then below
  else if den < excess then below + 1
  -- A tie: the neighbour above is the even one exactly when the one below is odd.
  else below + below % 2

theorem roundHalfEven_le (num den : Nat) : roundHalfEven num den ≤ num / den + 1 := by
  simp only [roundHalfEven]
  split
  · omega
  · split
    · omega
    · omega

/-- A nonnegative finite double, as a number of units of `2⁻¹⁰⁷⁴`: it has at most 53 significant
binary digits and lies below `2¹⁰²⁴`. -/
structure Magnitude where
  units : Nat
  /-- No digit lies beyond the 53 that follow from the leading one. -/
  aligned : 2 ^ (units.log2 - 52) ∣ units
  /-- The magnitude is below `2¹⁰²⁴`, which is `2²⁰⁹⁸` units. -/
  bounded : units.log2 < 2098
  deriving DecidableEq

namespace Magnitude

def zero : Magnitude where
  units := 0
  aligned := Nat.dvd_zero _
  bounded := by simp

theorem ext {m n : Magnitude} (h : m.units = n.units) : m = n := by
  cases m; cases n; cases h; rfl

/-- The spacing, in units, of the magnitudes around `num / den` units. -/
def spacing (num den : Nat) : Nat := 2 ^ ((num / den).log2 - 52)

/-- The number of units nearest to `num / den` among the multiples of the spacing there. -/
def roundUnits (num den : Nat) : Nat :=
  roundHalfEven num (den * spacing num den) * spacing num den

/-- At most `2⁵³` times a power of two has no digit beyond the 53 leading ones. -/
theorem aligned_mul_two_pow {k : Nat} (hk : k ≤ 2 ^ (53 : Nat)) (s : Nat) :
    2 ^ ((k * 2 ^ s).log2 - 52) ∣ k * 2 ^ s := by
  rcases Nat.eq_zero_or_pos k with rfl | hpos
  · simp
  · have hne : k * 2 ^ s ≠ 0 := Nat.mul_ne_zero (by omega) (Nat.ne_of_gt (Nat.two_pow_pos s))
    rcases Nat.lt_or_ge k (2 ^ (53 : Nat)) with hlt | hge
    · have hlog : (k * 2 ^ s).log2 < 53 + s := by
        rw [Nat.log2_lt hne, Nat.pow_add]
        exact Nat.mul_lt_mul_of_pos_right hlt (Nat.two_pow_pos s)
      exact Nat.dvd_trans (Nat.pow_dvd_pow 2 (by omega)) (Nat.dvd_mul_left _ _)
    · have hk' : k = 2 ^ (53 : Nat) := by omega
      have hlog : (k * 2 ^ s).log2 < 54 + s := by
        rw [Nat.log2_lt hne, Nat.pow_add]
        exact Nat.mul_lt_mul_of_pos_right (by omega) (Nat.two_pow_pos s)
      rw [hk', ← Nat.pow_add] at hlog ⊢
      exact Nat.pow_dvd_pow 2 (by omega)

/-- The rounded multiple of the spacing is at most `2⁵³`. -/
theorem roundHalfEven_spacing_le (num den : Nat) :
    roundHalfEven num (den * spacing num den) ≤ 2 ^ (53 : Nat) := by
  have hspace : 0 < spacing num den := Nat.two_pow_pos _
  have hquot : num / (den * spacing num den) < 2 ^ (53 : Nat) := by
    rw [← Nat.div_div_eq_div_mul, Nat.div_lt_iff_lt_mul hspace, spacing, ← Nat.pow_add]
    exact Nat.lt_of_lt_of_le Nat.lt_log2_self (Nat.pow_le_pow_right (by omega) (by omega))
  exact Nat.le_trans (roundHalfEven_le _ _) hquot

theorem aligned_roundUnits (num den : Nat) :
    2 ^ ((roundUnits num den).log2 - 52) ∣ roundUnits num den :=
  aligned_mul_two_pow (roundHalfEven_spacing_le num den) _

/-- The magnitude nearest to `num / den` units, a tie going to the even significand; `none` when
the rounded value reaches `2¹⁰²⁴`. -/
def nearest? (num den : Nat) : Option Magnitude :=
  -- Rounding up can carry over into the next power of two, so the bound is tested after it.
  if h : (roundUnits num den).log2 < 2098 then
    some { units := roundUnits num den, aligned := aligned_roundUnits num den, bounded := h }
  else none

/-- The magnitude nearest to the number `num / den`. -/
def ofRatio? (num den : Nat) : Option Magnitude := nearest? (num * 2 ^ (1074 : Nat)) den

end Magnitude

/-- A double. -/
inductive Binary64
  /-- A finite number; zero has both signs. -/
  | finite (negative : Bool) (magnitude : Magnitude)
  | infinite (negative : Bool)
  /-- The result of an undefined operation, equal to no number. -/
  | nan
  deriving DecidableEq

namespace Binary64

/-- Equality as numbers: the two zeros are equal, and what is not a number equals nothing. -/
def numericallyEqual : Binary64 → Binary64 → Bool
  | .finite s m, .finite t n => decide (m = n) && (s == t || m.units == 0)
  | .infinite s, .infinite t => s == t
  | _, _ => false

/-- A rounded magnitude with its sign, where overflow gives the infinity. -/
def ofMagnitude? (negative : Bool) : Option Magnitude → Binary64
  | some m => .finite negative m
  | none => .infinite negative

end Binary64

end LoxLexis
