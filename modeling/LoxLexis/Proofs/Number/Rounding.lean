import LoxLexis.Proofs.Number.Scaling
import Mathlib

/-!
# Rounding to integers and to digits

Rounding a quotient to an integer goes by a remainder, and rounding it to 53 binary digits goes by a
spacing that depends on the size of the quotient.  Neither is of interest to those who round.  What
they need of an integer is that it is at most one half away from the quotient, and even if it is as
far away as that; and what they need of a spacing is that 53 digits are left of the quotient, or all
of it.  Both are properties of the number that is rounded, whatever quotient it was given as, and
everything about rounding follows from them.

## Main definitions

* `RoundsToNat` — a natural number is what a number is rounded to
* `RoundsToDigits` — a number is rounded to a multiple of a power of two that leaves 53 digits

## Main statements

* `roundsToNat_roundHalfEven`, `Magnitude.exists_roundsToDigits` — this is what rounding does
* `RoundsToDigits.le_abs_sub` — no number of at most 53 digits is nearer
* `RoundsToDigits.even_of_abs_sub_eq` — where another one is as near, the count is even
* `RoundsToDigits.two_pow_le_iff`, `RoundsToDigits.eq_zero_iff` — where rounding ends in a power of
  two or above, and where it ends in zero
-/

namespace LoxLexis

/-! ### Integers -/

/-- A natural number is what a number is rounded to: it is at most one half away from it, and it is
even if it is as far away as that. -/
structure RoundsToNat (x : ℚ) (r : ℕ) : Prop where
  close : |x - r| ≤ 1 / 2
  even : |x - r| = 1 / 2 → Even r

namespace RoundsToNat

variable {x : ℚ} {r : ℕ}

/-- A number is rounded by what it has beyond the integer below it. -/
theorem of_excess (below : ℕ) {e : ℚ} (nonneg : 0 ≤ e) (lt_one : e < 1) :
    RoundsToNat (below + e)
      (if e < 1 / 2 then below else if 1 / 2 < e then below + 1 else below + below % 2) := by
  split
  · next low =>
      have distance : |(below : ℚ) + e - below| = e := by
        rw [add_sub_cancel_left, abs_of_nonneg nonneg]
      exact ⟨by linarith, fun tie => by linarith⟩
  split
  · next low high =>
      have distance : |(below : ℚ) + e - (below + 1 : ℕ)| = 1 - e := by
        push_cast
        rw [add_sub_add_left_eq_sub, abs_sub_comm, abs_of_pos (by linarith)]
      exact ⟨by linarith, fun tie => by linarith⟩
  · next low high =>
      -- The even neighbour is one half away, whichever of the two it is.
      have half : e = 1 / 2 := le_antisymm (not_lt.mp high) (not_lt.mp low)
      refine ⟨?_, fun _ => Nat.even_iff.mpr (by omega)⟩
      rcases Nat.mod_two_eq_zero_or_one below with even | odd
      · rw [even, Nat.add_zero, add_sub_cancel_left, half, abs_of_pos one_half_pos]
      · rw [odd, half, Nat.cast_add_one, add_sub_add_left_eq_sub, abs_sub_comm]
        norm_num

/-- No integer is nearer. -/
theorem le_abs_sub (h : RoundsToNat x r) (j : ℤ) : |x - r| ≤ |x - j| := by
  rcases eq_or_ne j r with rfl | differs
  · simp
  · have apart : (1 : ℚ) ≤ |(j : ℚ) - r| := by
      exact_mod_cast Int.one_le_abs (sub_ne_zero.mpr differs)
    have triangle := abs_sub_le (j : ℚ) x r
    rw [abs_sub_comm (j : ℚ) x] at triangle
    linarith [h.close]

/-- Where another integer is as near, the rounding is even. -/
theorem even_of_abs_sub_eq (h : RoundsToNat x r) {j : ℤ} (differs : j ≠ r)
    (tie : |x - j| = |x - r|) : Even r := by
  have apart : (1 : ℚ) ≤ |(j : ℚ) - r| := by
    exact_mod_cast Int.one_le_abs (sub_ne_zero.mpr differs)
  have triangle := abs_sub_le (j : ℚ) x r
  rw [abs_sub_comm (j : ℚ) x] at triangle
  exact h.even (le_antisymm h.close (by linarith))

/-- An even number is reached from one half below it on. -/
theorem even_le_iff (h : RoundsToNat x r) {k : ℕ} (even : Even k) : k ≤ r ↔ (k : ℚ) - 1 / 2 ≤ x := by
  obtain ⟨low, high⟩ := abs_le.mp h.close
  constructor
  · intro hk
    have hk' : (k : ℚ) ≤ r := Nat.cast_le.mpr hk
    linarith
  · intro hx
    by_contra! hlt
    -- The number just below would be one half away, and odd.
    have next : (r : ℚ) + 1 ≤ k := by exact_mod_cast hlt
    have far : |x - r| = 1 / 2 := le_antisymm h.close (le_trans (by linarith) (le_abs_self _))
    have succ : k = r + 1 := by
      have : (k : ℚ) ≤ r + 1 := by linarith
      exact le_antisymm (by exact_mod_cast this) hlt
    rw [succ, Nat.even_add_one] at even
    exact even (h.even far)

/-- An odd number is reached from beyond one half below it on. -/
theorem odd_le_iff (h : RoundsToNat x r) {k : ℕ} (odd : Odd k) : k ≤ r ↔ (k : ℚ) - 1 / 2 < x := by
  obtain ⟨low, high⟩ := abs_le.mp h.close
  constructor
  · intro hk
    have hk' : (k : ℚ) ≤ r := Nat.cast_le.mpr hk
    by_contra! hx
    have same : (k : ℚ) = r := by linarith
    have far : |x - r| = 1 / 2 := le_antisymm h.close (le_trans (by linarith) (neg_le_abs _))
    rw [Nat.cast_inj.mp same] at odd
    exact Nat.not_even_iff_odd.mpr odd (h.even far)
  · intro hx
    have : (k : ℚ) < r + 1 := by linarith
    exact Nat.lt_succ_iff.mp (by exact_mod_cast this)

end RoundsToNat

/-- **A quotient is rounded to the nearest integer.** -/
theorem roundsToNat_roundHalfEven (num : ℕ) {den : ℕ} (hd : 0 < den) :
    RoundsToNat (num / den) (roundHalfEven num den) := by
  have hden : (0 : ℚ) < den := Nat.cast_pos.mpr hd
  obtain ⟨e, he⟩ : ∃ e : ℚ, e = (num % den : ℕ) / den := ⟨_, rfl⟩
  have split : (num : ℚ) / den = (num / den : ℕ) + e := by
    rw [he, div_eq_iff hden.ne', add_mul, div_mul_cancel₀ _ hden.ne']
    exact_mod_cast (Nat.div_add_mod' num den).symm
  have nonneg : 0 ≤ e := by
    rw [he]
    positivity
  have lt_one : e < 1 := by
    rw [he, div_lt_one hden, Nat.cast_lt]
    exact Nat.mod_lt num hd
  -- The remainder is compared with one half of the divisor, that is, `e` with one half.
  have less : 2 * (num % den) < den ↔ e < 1 / 2 := by
    rw [he, div_lt_div_iff₀ hden two_pos, ← Nat.cast_lt (α := ℚ), mul_comm]
    push_cast
    rw [one_mul]
  have more : den < 2 * (num % den) ↔ 1 / 2 < e := by
    rw [he, div_lt_div_iff₀ two_pos hden, ← Nat.cast_lt (α := ℚ), mul_comm]
    push_cast
    rw [one_mul]
  simp only [roundHalfEven, less, more]
  rw [split]
  exact .of_excess _ nonneg lt_one

/-! ### Digits -/

/-- A number is rounded to a multiple of `2ˢ`: it has `r` of them, and 53 binary digits are left of
it, or all of it if nothing is cut off. -/
structure RoundsToDigits (x : ℚ) (r s : ℕ) : Prop where
  count : RoundsToNat (x / 2 ^ s) r
  below : x < 2 ^ (s + 53)
  above : s = 0 ∨ 2 ^ (s + 52) ≤ x

namespace RoundsToDigits

variable {x : ℚ} {r s : ℕ}

theorem abs_sub_mul (x j : ℚ) (s : ℕ) : |x - j * 2 ^ s| = |x / 2 ^ s - j| * 2 ^ s := by
  have pos : (0 : ℚ) < 2 ^ s := by positivity
  rw [← abs_of_pos pos, ← abs_mul, sub_mul, abs_of_pos pos, div_mul_cancel₀ _ pos.ne']

/-- The count may carry over to 54 digits, but not beyond the least number of so many. -/
theorem count_le (h : RoundsToDigits x r s) : r ≤ 2 ^ 53 := by
  have pos : (0 : ℚ) < 2 ^ s := by positivity
  have small : x / 2 ^ s < 2 ^ 53 := by
    rw [div_lt_iff₀ pos, ← pow_add, Nat.add_comm]
    exact h.below
  by_contra! more
  have odd : Odd (2 ^ 53 + 1) := by decide
  have := (h.count.odd_le_iff odd).mp more
  push_cast at this
  linarith

theorem le_count (h : RoundsToDigits x r s) : s = 0 ∨ 2 ^ 52 ≤ r := by
  refine h.above.imp_right fun large => ?_
  have pos : (0 : ℚ) < 2 ^ s := by positivity
  have even : Even (2 ^ 52) := by decide
  have : (2 : ℚ) ^ 52 ≤ x / 2 ^ s := by
    rw [le_div_iff₀ pos, ← pow_add, Nat.add_comm]
    exact large
  refine (h.count.even_le_iff even).mpr ?_
  push_cast
  linarith

/-! ### What is nearest -/

/-- A number of at most 53 digits is a multiple of the spacing, or it lies below all multiples of 53
digits, the least of which is not beyond the number rounded. -/
theorem multiple_or_lt (h : RoundsToDigits x r s) {k : ℕ} (hk : k < 2 ^ 53) (t : ℕ) :
    (∃ j : ℕ, k * 2 ^ t = j * 2 ^ s) ∨
      ((k * 2 ^ t : ℕ) : ℚ) < 2 ^ (s + 52) ∧ (2 : ℚ) ^ (s + 52) ≤ x := by
  rcases le_or_gt s t with wide | narrow
  · refine .inl ⟨k * 2 ^ (t - s), ?_⟩
    rw [Nat.mul_assoc, ← pow_add, Nat.sub_add_cancel wide]
  · refine .inr ⟨?_, h.above.resolve_left (by omega)⟩
    have short : k * 2 ^ t < 2 ^ (s + 52) := by
      calc k * 2 ^ t < 2 ^ 53 * 2 ^ t := Nat.mul_lt_mul_of_pos_right hk (Nat.two_pow_pos t)
        _ = 2 ^ (t + 53) := by rw [← pow_add, Nat.add_comm]
        _ ≤ 2 ^ (s + 52) := Nat.pow_le_pow_right two_pos (by omega)
    exact_mod_cast short

theorem le_abs_sub_multiple (h : RoundsToDigits x r s) (j : ℤ) :
    |x - r * 2 ^ s| ≤ |x - j * 2 ^ s| := by
  rw [abs_sub_mul, abs_sub_mul]
  exact mul_le_mul_of_nonneg_right (h.count.le_abs_sub j) (by positivity)

/-- What lies below the multiples of 53 digits is further away. -/
theorem abs_sub_lt_of_lt (h : RoundsToDigits x r s) {v : ℚ} (short : v < 2 ^ (s + 52))
    (large : 2 ^ (s + 52) ≤ x) : |x - r * 2 ^ s| < |x - v| := by
  have least := h.le_abs_sub_multiple (2 ^ 52)
  have whole : ((2 ^ 52 : ℤ) : ℚ) * 2 ^ s = 2 ^ (s + 52) := by
    rw [Int.cast_pow, Int.cast_ofNat, ← pow_add, Nat.add_comm]
  have behind : 0 ≤ x - 2 ^ (s + 52) := sub_nonneg.mpr large
  have further : x - 2 ^ (s + 52) < x - v := sub_lt_sub_left short x
  rw [whole, abs_of_nonneg behind] at least
  rw [abs_of_pos (behind.trans_lt further)]
  exact least.trans_lt further

/-- **No number of at most 53 digits is nearer.** -/
theorem le_abs_sub (h : RoundsToDigits x r s) {k : ℕ} (hk : k < 2 ^ 53) (t : ℕ) :
    |x - r * 2 ^ s| ≤ |x - (k * 2 ^ t : ℕ)| := by
  rcases h.multiple_or_lt hk t with ⟨j, hj⟩ | ⟨short, large⟩
  · rw [hj]
    exact_mod_cast h.le_abs_sub_multiple j
  · exact (h.abs_sub_lt_of_lt short large).le

/-- **Where another number of at most 53 digits is as near, the count of spacings is even.** -/
theorem even_of_abs_sub_eq (h : RoundsToDigits x r s) {k : ℕ} (hk : k < 2 ^ 53) (t : ℕ)
    (differs : k * 2 ^ t ≠ r * 2 ^ s) (tie : |x - (k * 2 ^ t : ℕ)| = |x - r * 2 ^ s|) : Even r := by
  rcases h.multiple_or_lt hk t with ⟨j, hj⟩ | ⟨short, large⟩
  · have pos : (0 : ℚ) < 2 ^ s := by positivity
    rw [hj] at tie differs
    push_cast at tie
    rw [abs_sub_mul, abs_sub_mul] at tie
    have counts : (j : ℤ) ≠ r := fun same => differs (by rw [Nat.cast_inj.mp same])
    exact h.count.even_of_abs_sub_eq counts (by exact_mod_cast mul_right_cancel₀ pos.ne' tie)
  · exact absurd tie (h.abs_sub_lt_of_lt short large).ne'

/-! ### Powers of two and zero -/

/-- A count of 53 digits leaves no more room for the spacing than the sum of both has. -/
theorem add_spacing_lt {n : ℕ} (long : 2 ^ 52 ≤ r) (bounded : r * 2 ^ s < 2 ^ n) : 52 + s < n := by
  have power : 2 ^ (52 + s) < 2 ^ n := by
    rw [pow_add]
    exact (Nat.mul_le_mul_right _ long).trans_lt bounded
  exact (Nat.pow_lt_pow_iff_right one_lt_two).mp power

theorem two_pow_add_le_mul_iff (a b r : ℕ) : 2 ^ (a + b) ≤ r * 2 ^ b ↔ 2 ^ a ≤ r := by
  rw [pow_add]
  exact Nat.mul_le_mul_right_iff (Nat.two_pow_pos b)

/-- **A power of two is reached from half a spacing below it on.** -/
theorem two_pow_le_iff (h : RoundsToDigits x r s) (p n : ℕ) (hp : p = n + 54) :
    2 ^ p ≤ r * 2 ^ s ↔ (2 : ℚ) ^ p - 2 ^ n ≤ x := by
  subst hp
  have wide : (2 : ℚ) ^ (n + 54) = 2 ^ (n + 53) + 2 ^ (n + 53) := by ring
  have step : (2 : ℚ) ^ n ≤ 2 ^ (n + 53) := pow_le_pow_right₀ one_le_two (by omega)
  rcases lt_trichotomy s (n + 1) with narrow | rfl | broad
  · -- The spacing is too small for 53 digits to get there.
    have short : r * 2 ^ s < 2 ^ (n + 54) := by
      calc r * 2 ^ s ≤ 2 ^ 53 * 2 ^ s := Nat.mul_le_mul_right _ h.count_le
        _ = 2 ^ (s + 53) := by rw [← pow_add, Nat.add_comm]
        _ < 2 ^ (n + 54) := Nat.pow_lt_pow_right one_lt_two (by omega)
    have below : x < 2 ^ (n + 53) :=
      h.below.trans_le (pow_le_pow_right₀ one_le_two (by omega))
    exact iff_of_false (not_le.mpr short) (not_le.mpr (by linarith))
  · -- The count carries over exactly if it is rounded to `2⁵³`, which is even.
    have pos : (0 : ℚ) < 2 ^ (n + 1) := by positivity
    have even : Even (2 ^ 53) := by decide
    have half : ((2 ^ 53 : ℕ) - 1 / 2 : ℚ) * 2 ^ (n + 1) = 2 ^ (n + 54) - 2 ^ n := by
      rw [Nat.cast_pow, Nat.cast_ofNat]
      ring
    have carry : n + 54 = 53 + (n + 1) := by omega
    rw [← half, ← le_div_iff₀ pos, ← h.count.even_le_iff even, carry]
    exact two_pow_add_le_mul_iff 53 (n + 1) r
  · have long : 2 ^ 52 ≤ r := h.le_count.resolve_left (by omega)
    have large := h.above.resolve_left (by omega)
    have reached : 2 ^ (n + 54) ≤ r * 2 ^ s := by
      calc 2 ^ (n + 54) ≤ 2 ^ (52 + s) := Nat.pow_le_pow_right two_pos (by omega)
        _ = 2 ^ 52 * 2 ^ s := pow_add ..
        _ ≤ r * 2 ^ s := Nat.mul_le_mul_right _ long
    have beyond : (2 : ℚ) ^ (n + 54) ≤ 2 ^ (s + 52) := pow_le_pow_right₀ one_le_two (by omega)
    have pos : (0 : ℚ) ≤ 2 ^ n := by positivity
    exact iff_of_true reached (by linarith)

/-- **A number is rounded to zero up to one half.** -/
theorem eq_zero_iff (h : RoundsToDigits x r s) : r * 2 ^ s = 0 ↔ x ≤ 1 / 2 := by
  have none : ¬ 1 ≤ r ↔ x / 2 ^ s ≤ 1 / 2 := by
    rw [h.count.odd_le_iff odd_one, not_lt, Nat.cast_one, sub_half]
  have counted : r * 2 ^ s = 0 ↔ ¬ 1 ≤ r := by
    rw [Nat.mul_eq_zero, or_iff_left (Nat.two_pow_pos s).ne', Nat.not_le, Nat.lt_one_iff]
  rw [counted]
  constructor
  · intro small
    have spacing : s = 0 := h.le_count.resolve_right (by omega)
    rwa [none, spacing, pow_zero, div_one] at small
  · intro small
    have spacing : s = 0 := by
      refine h.above.resolve_right (not_le.mpr (small.trans_lt ?_))
      calc (1 / 2 : ℚ) < 1 := one_half_lt_one
        _ ≤ 2 ^ (s + 52) := one_le_pow₀ one_le_two
    rwa [none, spacing, pow_zero, div_one]

end RoundsToDigits

/-! ### Quotients of units -/

namespace Magnitude

variable {num den : ℕ}

theorem two_pow_log2_le (h : num / den ≠ 0) : (2 : ℚ) ^ (num / den).log2 ≤ num / den := by
  have below : 2 ^ (num / den).log2 ≤ num / den := Nat.log2_self_le h
  have cast : ((num / den : ℕ) : ℚ) ≤ num / den := Nat.cast_div_le
  exact le_trans (by exact_mod_cast below) cast

theorem lt_two_pow_log2 (num : ℕ) (hd : 0 < den) : (num / den : ℚ) < 2 ^ ((num / den).log2 + 1) := by
  have hden : (0 : ℚ) < den := Nat.cast_pos.mpr hd
  have above : num / den < 2 ^ ((num / den).log2 + 1) := Nat.lt_log2_self
  rw [div_lt_iff₀ hden]
  exact_mod_cast (Nat.div_lt_iff_lt_mul hd).mp above

/-- **A quotient of units is rounded to 53 digits.** -/
theorem exists_roundsToDigits (num : ℕ) (hd : 0 < den) :
    ∃ r s, roundUnits num den = r * 2 ^ s ∧ RoundsToDigits (num / den) r s := by
  refine ⟨_, (num / den).log2 - 52, rfl, ?_, ?_, ?_⟩
  · have spaced : 0 < den * 2 ^ ((num / den).log2 - 52) := Nat.mul_pos hd (Nat.two_pow_pos _)
    rw [div_div]
    exact_mod_cast roundsToNat_roundHalfEven num spaced
  · exact (lt_two_pow_log2 num hd).trans_le (pow_le_pow_right₀ one_le_two (by omega))
  · rcases Nat.lt_or_ge (num / den).log2 52 with small | large
    · exact .inl (by omega)
    · right
      have nonzero : num / den ≠ 0 := by
        intro zero
        rw [zero] at large
        exact absurd large (by decide)
      rw [Nat.sub_add_cancel large]
      exact two_pow_log2_le nonzero

end Magnitude

end LoxLexis
