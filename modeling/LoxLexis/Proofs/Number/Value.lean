import LoxLexis.Proofs.Number.Nearest
import Mathlib

/-!
# Decimals are read by their value

A decimal is formed from powers of ten only within bounds, and read as the nearest double.  Beyond
the bounds the nearest double is zero or infinite, so the bounds cut nothing off and a decimal is
read by its value alone: equal ones alike, and a greater one not as a smaller double.  The decimals
that are read as one and the same double therefore have no gaps between them, which is what a search
for a short one among them goes by.

## Main definitions

* `Decimal.toRat` — the number that a decimal is
* `Binary64.AtMost` — a double is not greater than another one

## Main statements

* `Decimal.rounds_magnitude?` — a decimal is read as the nearest double
* `Decimal.magnitude?_congr`, `Decimal.magnitude?_mono` — decimals of one value are read alike, and
  greater ones not as smaller doubles
* `Decimal.magnitude?_between` — what lies between two decimals of one double is read as that double
-/

namespace LoxLexis

/-! ### Decimals -/

namespace Magnitude

/-- Equal quotients are read as the same magnitude. -/
theorem ofRatio?_congr {num num' den den' : ℕ} (hd : 0 < den) (hd' : 0 < den')
    (h : (num / den : ℚ) = num' / den') : ofRatio? num den = ofRatio? num' den' := by
  have cross : num * den' = num' * den := by
    rw [div_eq_div_iff (Nat.cast_pos.mpr hd).ne' (Nat.cast_pos.mpr hd').ne'] at h
    exact_mod_cast h
  rw [← ofRatio?_mul num den hd', cross, Nat.mul_comm den den', ofRatio?_mul num' den' hd]

end Magnitude

/-- The number that a decimal is. -/
def Decimal.toRat (d : Decimal) : ℚ := d.digits * 10 ^ d.exponent

namespace Decimal

open Binary64

variable {d d' : Decimal}

/-- A decimal is read as a quotient of natural numbers. -/
theorem exists_ratio (d : Decimal) :
    ∃ num den : ℕ, 0 < den ∧ d.ratio? = Magnitude.ofRatio? num den ∧ d.toRat = num / den := by
  obtain ⟨digits, exponent⟩ := d
  match exponent with
  | .ofNat e =>
    refine ⟨digits * 10 ^ e, 1, one_pos, rfl, ?_⟩
    simp [toRat]
  | .negSucc e =>
    refine ⟨digits, 10 ^ (e + 1), Nat.pow_pos (by decide), rfl, ?_⟩
    simp [toRat, zpow_negSucc, div_eq_mul_inv]

/-- Zeros at the end of a decimal leave the number as it is. -/
theorem toRat_shifted (d : Decimal) (k : ℕ) : (d.shifted k).toRat = d.toRat := by
  have tens : (10 : ℚ) ^ k ≠ 0 := by positivity
  rw [toRat, toRat, shifted, Nat.cast_mul, Nat.cast_pow, Nat.cast_ofNat, zpow_sub₀ (by norm_num),
    zpow_natCast, mul_assoc, mul_div_cancel₀ _ tens]

theorem toRat_lt (d : Decimal) : d.toRat < 10 ^ d.ceilingExponent := by
  have digits : (d.digits : ℚ) < 10 ^ digitCount d.digits := by
    exact_mod_cast lt_ten_pow_digitCount d.digits
  rw [toRat, ceilingExponent, add_comm, zpow_add₀ (by norm_num), zpow_natCast]
  exact mul_lt_mul_of_pos_right digits (by positivity)

theorem le_toRat (nonzero : d.digits ≠ 0) : (10 : ℚ) ^ (d.ceilingExponent - 1) ≤ d.toRat := by
  have digits : (10 : ℚ) ^ (digitCount d.digits - 1) ≤ d.digits := by
    exact_mod_cast ten_pow_digitCount_le (Nat.pos_of_ne_zero nonzero)
  have count := digitCount_pos d.digits
  have exponent : d.ceilingExponent - 1 = ((digitCount d.digits - 1 : ℕ) : ℤ) + d.exponent := by
    rw [ceilingExponent]
    omega
  rw [exponent, zpow_add₀ (by norm_num), zpow_natCast, toRat]
  exact mul_le_mul_of_nonneg_right digits (by positivity)

theorem rounds_ratio? (d : Decimal) : Rounds d.toRat (.ofMagnitude? false d.ratio?) := by
  obtain ⟨num, den, hd, ratio, value⟩ := d.exists_ratio
  rw [ratio, value]
  exact rounds_ofRatio? num hd

theorem cast_pow_le_cast_pow {a b m n : ℕ} (h : a ^ m ≤ b ^ n) : (a : ℚ) ^ m ≤ (b : ℚ) ^ n := by
  exact_mod_cast h

/-- Ten to the power of -324 is nearer to zero than to the least positive double. -/
theorem ten_zpow_le_least : (10 : ℚ) ^ (-324 : ℤ) ≤ 2 ^ (-1075 : ℤ) := by
  have powers : (2 : ℚ) ^ 1075 ≤ 10 ^ 324 :=
    cast_pow_le_cast_pow (a := 2) (b := 10) (m := 1075) (n := 324) (by decide +kernel)
  rw [zpow_neg, zpow_neg, zpow_ofNat, zpow_ofNat]
  exact inv_anti₀ (by positivity) powers

/-- Ten to the power of 309 is beyond the greatest double. -/
theorem largest_le_ten_zpow : (2 : ℚ) ^ 1024 - 2 ^ 970 ≤ 10 ^ (309 : ℤ) := by
  have powers : (2 : ℚ) ^ 1024 ≤ 10 ^ 309 :=
    cast_pow_le_cast_pow (a := 2) (b := 10) (m := 1024) (n := 309) (by decide +kernel)
  have pos : (0 : ℚ) ≤ 2 ^ 970 := by positivity
  rw [zpow_ofNat]
  exact (sub_le_self _ pos).trans powers

theorem ofMagnitude?_injective {m m' : Option Magnitude}
    (h : ofMagnitude? false m = ofMagnitude? false m') : m = m' := by
  cases m with
  | none =>
      cases m' with
      | none => rfl
      | some _ => cases h
  | some _ =>
      cases m' with
      | none => cases h
      | some _ => exact congrArg some (Binary64.finite.inj h).2

/-- The bounds between which powers of ten are formed cut nothing off. -/
theorem magnitude?_eq_ratio? (d : Decimal) : d.magnitude? = d.ratio? := by
  have rounds := d.rounds_ratio?
  rw [magnitude?_eq]
  split
  · next small =>
    have tiny : d.toRat ≤ 2 ^ (-1075 : ℤ) := by
      rcases small with zero | low
      · rw [toRat, zero, Nat.cast_zero, zero_mul]
        positivity
      · refine d.toRat_lt.le.trans (le_trans ?_ ten_zpow_le_least)
        exact zpow_le_zpow_right₀ (by norm_num) (by omega)
    exact (ofMagnitude?_injective (rounds.zero_iff.mpr tiny)).symm
  split
  · next small high =>
    have huge : (2 : ℚ) ^ 1024 - 2 ^ 970 ≤ d.toRat := by
      have nonzero : d.digits ≠ 0 := fun zero => small (.inl zero)
      refine largest_le_ten_zpow.trans (le_trans ?_ (le_toRat nonzero))
      exact zpow_le_zpow_right₀ (by norm_num) (by omega)
    exact (ofMagnitude?_injective (rounds.infinite_iff.mpr huge)).symm
  · rfl

/-- **A decimal is read as the nearest double.** -/
theorem rounds_magnitude? (d : Decimal) : Rounds d.toRat (.ofMagnitude? false d.magnitude?) := by
  rw [magnitude?_eq_ratio?]
  exact d.rounds_ratio?

/-- **Decimals of one value are read alike.** -/
theorem magnitude?_congr (h : d.toRat = d'.toRat) : d.magnitude? = d'.magnitude? := by
  obtain ⟨num, den, hd, ratio, value⟩ := d.exists_ratio
  obtain ⟨num', den', hd', ratio', value'⟩ := d'.exists_ratio
  rw [magnitude?_eq_ratio?, magnitude?_eq_ratio?, ratio, ratio']
  exact Magnitude.ofRatio?_congr hd hd' (by rw [← value, ← value', h])

end Decimal

/-- Of two numbers the one nearer to the greater of two others is not the smaller. -/
theorem le_of_abs_sub_le {q q' x y : ℚ} (less : y < x) (near : |q - x| ≤ |q - y|)
    (near' : |q' - y| ≤ |q' - x|) : q' ≤ q := by
  have squares := sq_le_sq.mpr near
  have squares' := sq_le_sq.mpr near'
  nlinarith

namespace Binary64

/-- A double is not greater than another one: this one is no number, or not the smaller number. -/
def AtMost (b b' : Binary64) : Prop := ∀ y, b'.toRat? = some y → ∃ x, b.toRat? = some x ∧ x ≤ y

theorem AtMost.refl (b : Binary64) : b.AtMost b := fun y hy => ⟨y, hy, le_rfl⟩

/-- The rounding of a smaller number is not greater. -/
theorem Rounds.atMost {q q' : ℚ} {b b' : Binary64} (h : Rounds q b) (h' : Rounds q' b')
    (less : q < q') : b.AtMost b' := by
  intro y hy
  have finite : b ≠ .infinite false := by
    intro infinite
    have beyond := h'.infinite_iff.mpr ((h.infinite_iff.mp infinite).trans less.le)
    rw [beyond] at hy
    cases hy
  obtain ⟨m, rfl⟩ := h.unsigned.resolve_left finite
  refine ⟨m.toRat, rfl, le_of_not_gt fun more => less.not_ge ?_⟩
  exact le_of_abs_sub_le more (h.nearest _ rfl y (h'.holds y hy))
    (h'.nearest y hy _ (h.holds _ rfl))

end Binary64

namespace Magnitude

theorem toRat_injective {m m' : Magnitude} (h : m.toRat = m'.toRat) : m = m' := by
  refine Magnitude.ext ?_
  exact_mod_cast mul_right_cancel₀ unit_pos.ne' h

end Magnitude

namespace Decimal

variable {d d' : Decimal}

/-- **A greater decimal is not read as a smaller double.** -/
theorem magnitude?_mono (h : d.toRat ≤ d'.toRat) {m' : Magnitude} (hm' : d'.magnitude? = some m') :
    ∃ m, d.magnitude? = some m ∧ m.toRat ≤ m'.toRat := by
  rcases h.lt_or_eq with less | same
  · have rounds := d.rounds_magnitude?
    have rounds' := d'.rounds_magnitude?
    rw [hm'] at rounds'
    obtain ⟨x, hx, le⟩ := rounds.atMost rounds' less _ rfl
    cases read : d.magnitude? with
    | none =>
        rw [read] at hx
        cases hx
    | some m =>
        rw [read] at hx
        exact ⟨m, rfl, Binary64.toRat?_of_finite hx ▸ le⟩
  · exact ⟨m', (magnitude?_congr same).trans hm', le_rfl⟩

/-- **The decimals that are read as one double have no gaps between them.** -/
theorem magnitude?_between {low high : Decimal} {m : Magnitude} (hlow : low.magnitude? = some m)
    (hhigh : high.magnitude? = some m) (above : low.toRat ≤ d.toRat) (below : d.toRat ≤ high.toRat) :
    d.magnitude? = some m := by
  obtain ⟨m', read, le⟩ := magnitude?_mono below hhigh
  obtain ⟨m'', read', ge⟩ := magnitude?_mono above read
  rw [hlow] at read'
  cases read'
  rw [read, Magnitude.toRat_injective (le_antisymm le ge)]

end Decimal

end LoxLexis
