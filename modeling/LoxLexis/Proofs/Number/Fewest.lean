import LoxLexis.Proofs.Number.Value
import Mathlib

/-!
# The fewest digits

The search for a short decimal drops digits from the exact value of a magnitude and looks only at
the two neighbours of that value on a grid of powers of ten.  Nothing is overlooked: the decimals
that are read as one double have no gaps between them and the exact value is one of them, so if any
number on a grid is read as the double, then so is a neighbour of the exact value on that grid.  And a
decimal with so few digits that it would be shorter than what was found lies on such a grid, or
further away from the exact value than the next power of ten.

## Main statements

* `Magnitude.isSome_onGrid?` — what reads back and is no nearer than a neighbour on a grid shows that
  some neighbour on the grid reads back
* `Magnitude.digitCount_shortest_le` — no decimal that reads back has fewer digits than the shortest
-/

namespace LoxLexis

/-! ### Digits without trailing zeros -/

namespace Decimal

theorem digits_stripped_le (d : Decimal) : d.stripped.digits ≤ d.digits := by
  fun_induction stripped d with
  | case1 d h ih => exact ih.trans (Nat.div_le_self _ _)
  | case2 d h => exact le_rfl

/-- All zeros at the end are stripped. -/
theorem digits_stripped_le_of_zeros {a : ℕ} (pos : 0 < a) (j : ℕ) (e : ℤ) :
    (stripped { digits := a * 10 ^ j, exponent := e }).digits ≤ a := by
  induction j generalizing e with
  | zero => exact (digits_stripped_le _).trans_eq (Nat.mul_one a)
  | succ j ih =>
      have more : a * 10 ^ (j + 1) = a * 10 ^ j * 10 := by
        rw [Nat.pow_succ, Nat.mul_assoc]
      have nonzero : 0 < a * 10 ^ j := Nat.mul_pos pos (Nat.pow_pos (by decide))
      have zero : a * 10 ^ j * 10 ≠ 0 ∧ a * 10 ^ j * 10 % 10 = 0 := ⟨by omega, by omega⟩
      rw [more, stripped, dif_pos zero]
      show (stripped { digits := a * 10 ^ j * 10 / 10, exponent := e + 1 }).digits ≤ a
      rw [Nat.mul_div_cancel _ (by decide)]
      exact ih (e + 1)

/-- A number of `p` digits has no more of them when it is stripped, even if it was rounded up to the
least number of one digit more. -/
theorem digitCount_stripped_le {d : Decimal} {p : ℕ} (hp : 0 < p) (h : d.digits ≤ 10 ^ p) :
    digitCount d.stripped.digits ≤ p := by
  rw [digitCount_le_iff hp]
  rcases h.lt_or_eq with less | power
  · exact (digits_stripped_le d).trans_lt less
  · have one : (stripped { digits := 1 * 10 ^ p, exponent := d.exponent }).digits ≤ 1 :=
      digits_stripped_le_of_zeros one_pos p d.exponent
    rw [Nat.one_mul, ← power] at one
    exact one.trans_lt (Nat.one_lt_pow hp.ne' (by decide))

/-- The value of a number on a grid. -/
theorem toRat_grid (a k : ℕ) :
    toRat { digits := a, exponent := -1074 + k } = (a * 10 ^ k : ℕ) * 10 ^ (-1074 : ℤ) := by
  rw [toRat, zpow_add₀ (by norm_num), zpow_natCast, Nat.cast_mul, Nat.cast_pow, Nat.cast_ofNat]
  ring

/-- On one grid the numbers are ordered as their counts. -/
theorem grid_le_grid_iff {a b : ℕ} : (a : ℚ) * 10 ^ (-1074 : ℤ) ≤ b * 10 ^ (-1074 : ℤ) ↔ a ≤ b := by
  have pos : (0 : ℚ) < 10 ^ (-1074 : ℤ) := by positivity
  rw [mul_le_mul_iff_left₀ pos, Nat.cast_le]

end Decimal

namespace Magnitude

open Decimal

variable {m : Magnitude} {d : Decimal} {k : ℕ}

/-! ### Neighbours on a grid -/

theorem toRat_exact (m : Magnitude) : m.exact.toRat = m.exact.digits * 10 ^ (-1074 : ℤ) := rfl

theorem toRat_gridBelow (m : Magnitude) (k : ℕ) :
    (m.gridBelow k).toRat = (m.exact.digits / 10 ^ k * 10 ^ k : ℕ) * 10 ^ (-1074 : ℤ) :=
  toRat_grid (m.exact.digits / 10 ^ k) k

theorem toRat_gridAbove (m : Magnitude) (k : ℕ) :
    (m.gridAbove k).toRat = ((m.exact.digits / 10 ^ k + 1) * 10 ^ k : ℕ) * 10 ^ (-1074 : ℤ) :=
  toRat_grid (m.exact.digits / 10 ^ k + 1) k

theorem digits_exact_pos (nonzero : m ≠ .zero) : 0 < m.exact.digits := by
  have units : 0 < m.units := Nat.pos_of_ne_zero fun zero => nonzero (Magnitude.ext zero)
  exact Nat.mul_pos units (five_pow_pos 1074)

-- The exact digits are a product with a large factor, which no proof from here on looks at.
attribute [local irreducible] Magnitude.exact

theorem gridBelow_le (m : Magnitude) (k : ℕ) : (m.gridBelow k).toRat ≤ m.exact.toRat := by
  rw [toRat_exact, toRat_gridBelow, grid_le_grid_iff]
  exact Nat.div_mul_le_self _ _

theorem le_gridAbove (m : Magnitude) (k : ℕ) : m.exact.toRat ≤ (m.gridAbove k).toRat := by
  have tens : 0 < 10 ^ k := Nat.pow_pos (by decide)
  have next := Nat.lt_mul_div_succ m.exact.digits tens
  rw [toRat_exact, toRat_gridAbove, grid_le_grid_iff, Nat.mul_comm]
  exact next.le

theorem isSome_onGrid?_of_mem (mem : d ∈ [m.gridNearest k, m.gridBelow k, m.gridAbove k])
    (reads : d.magnitude? = some m) : (m.onGrid? k).isSome := by
  rw [onGrid?, List.find?_isSome]
  exact ⟨d, mem, decide_eq_true reads⟩

/-- **If any number that is not between the neighbours reads back, then a neighbour does.** -/
theorem isSome_onGrid? (reads : d.magnitude? = some m)
    (apart : d.toRat ≤ (m.gridBelow k).toRat ∨ (m.gridAbove k).toRat ≤ d.toRat) :
    (m.onGrid? k).isSome := by
  rcases apart with below | above
  · refine isSome_onGrid?_of_mem (d := m.gridBelow k) (by simp) ?_
    exact magnitude?_between reads m.magnitude?_exact below (m.gridBelow_le k)
  · refine isSome_onGrid?_of_mem (d := m.gridAbove k) (by simp) ?_
    exact magnitude?_between m.magnitude?_exact reads (m.le_gridAbove k) above

/-! ### What the search finds -/

theorem digits_le_of_onGrid? (found : m.onGrid? k = some d) :
    d.digits ≤ m.exact.digits / 10 ^ k + 1 := by
  have mem := List.mem_of_find?_eq_some found
  simp only [List.mem_cons, List.not_mem_nil, or_false] at mem
  rcases mem with rfl | rfl | rfl
  · exact roundHalfEven_le _ _
  · exact Nat.le_succ _
  · exact le_rfl

/-- What is found has no more digits than what reads back on any grid. -/
theorem digits_dropping_le {n : ℕ} (within : k ≤ n) (found : k = 0 ∨ (m.onGrid? k).isSome) :
    (m.dropping n).digits ≤ m.exact.digits / 10 ^ k + 1 := by
  induction n with
  | zero =>
      obtain rfl : k = 0 := Nat.le_zero.mp within
      rw [dropping_zero, Nat.pow_zero, Nat.div_one]
      exact Nat.le_succ _
  | succ n ih =>
      rw [dropping_succ]
      cases coarse : m.onGrid? (n + 1) with
      | none =>
          rcases within.lt_or_eq with less | rfl
          · exact ih (Nat.lt_succ_iff.mp less)
          · rcases found with zero | some
            · cases zero
            · rw [coarse] at some
              cases some
      | some d =>
          have fewer : m.exact.digits / 10 ^ (n + 1) ≤ m.exact.digits / 10 ^ k :=
            Nat.div_le_div_left (Nat.pow_le_pow_right (by decide) within) (Nat.pow_pos (by decide))
          exact (digits_le_of_onGrid? coarse).trans (Nat.succ_le_succ fewer)

/-- With so many digits dropped as a grid shows, so many are missing. -/
theorem digitCount_shortest_le_sub (within : k < digitCount m.exact.digits)
    (found : k = 0 ∨ (m.onGrid? k).isSome) :
    digitCount m.shortest.digits ≤ digitCount m.exact.digits - k := by
  refine digitCount_stripped_le (by omega) ((digits_dropping_le (by omega) found).trans ?_)
  have split : 10 ^ (digitCount m.exact.digits - k) * 10 ^ k = 10 ^ digitCount m.exact.digits := by
    rw [← pow_add, Nat.sub_add_cancel within.le]
  have less : m.exact.digits / 10 ^ k < 10 ^ (digitCount m.exact.digits - k) := by
    rw [Nat.div_lt_iff_lt_mul (Nat.pow_pos (by decide)), split]
    exact lt_ten_pow_digitCount _
  exact less

/-! ### No decimal has fewer digits -/

/-- A decimal on a grid is not between neighbours on it. -/
theorem apart_of_exponent_ge (fine : (k : ℤ) - 1074 ≤ d.exponent) :
    d.toRat ≤ (m.gridBelow k).toRat ∨ (m.gridAbove k).toRat ≤ d.toRat := by
  obtain ⟨digits, exponent⟩ := d
  obtain ⟨j, rfl⟩ : ∃ j : ℕ, exponent = -1074 + (j + k : ℕ) :=
    ⟨(exponent + 1074 - k).toNat, by simp only at fine; omega⟩
  rw [toRat_gridBelow, toRat_gridAbove, toRat_grid, grid_le_grid_iff, grid_le_grid_iff, pow_add,
    ← Nat.mul_assoc]
  rcases Nat.lt_or_ge (m.exact.digits / 10 ^ k) (digits * 10 ^ j) with more | less
  · exact .inr (Nat.mul_le_mul_right _ more)
  · exact .inl (Nat.mul_le_mul_right _ less)

/-- A decimal of few digits that is not on the grid is smaller than any number of so many digits on
it, and hence smaller than the neighbour below. -/
theorem apart_of_exponent_lt (pos : 0 < m.exact.digits) (coarse : d.exponent < (k : ℤ) - 1074)
    (few : digitCount d.digits + k ≤ digitCount m.exact.digits) :
    d.toRat ≤ (m.gridBelow k).toRat := by
  have count := digitCount_pos d.digits
  have split : 10 ^ (digitCount m.exact.digits - 1 - k) * 10 ^ k =
      10 ^ (digitCount m.exact.digits - 1) := by
    rw [← pow_add, Nat.sub_add_cancel (by omega)]
  have leading : 10 ^ (digitCount m.exact.digits - 1) ≤ m.exact.digits / 10 ^ k * 10 ^ k := by
    rw [← split]
    refine Nat.mul_le_mul_right _ ((Nat.le_div_iff_mul_le (Nat.pow_pos (by decide))).mpr ?_)
    rw [split]
    exact ten_pow_digitCount_le pos
  have power : (10 : ℚ) ^ ((digitCount m.exact.digits - 1 : ℕ) + -1074 : ℤ) =
      (10 ^ (digitCount m.exact.digits - 1) : ℕ) * 10 ^ (-1074 : ℤ) := by
    rw [zpow_add₀ (by norm_num), zpow_natCast, Nat.cast_pow, Nat.cast_ofNat]
  calc d.toRat ≤ 10 ^ d.ceilingExponent := d.toRat_lt.le
    _ ≤ 10 ^ ((digitCount m.exact.digits - 1 : ℕ) + -1074 : ℤ) := by
      refine zpow_le_zpow_right₀ (by norm_num) ?_
      rw [ceilingExponent]
      omega
    _ = (10 ^ (digitCount m.exact.digits - 1) : ℕ) * 10 ^ (-1074 : ℤ) := power
    _ ≤ (m.gridBelow k).toRat := by
      rw [toRat_gridBelow]
      exact grid_le_grid_iff.mpr leading

/-- **No decimal that reads back has fewer digits than the shortest.** -/
theorem digitCount_shortest_le (nonzero : m ≠ .zero) (reads : d.magnitude? = some m) :
    digitCount m.shortest.digits ≤ digitCount d.digits := by
  have pos := digits_exact_pos nonzero
  have count := digitCount_pos d.digits
  rcases Nat.lt_or_ge (digitCount d.digits) (digitCount m.exact.digits) with few | many
  · -- The grid on which as many digits are left as the decimal has.
    obtain ⟨k, hk⟩ : ∃ k, digitCount m.exact.digits = digitCount d.digits + k :=
      Nat.exists_eq_add_of_le few.le
    have found : (m.onGrid? k).isSome := by
      refine isSome_onGrid? reads ?_
      rcases le_or_gt ((k : ℤ) - 1074) d.exponent with fine | coarse
      · exact apart_of_exponent_ge fine
      · exact .inl (apart_of_exponent_lt pos coarse hk.ge)
    have bound := digitCount_shortest_le_sub (by omega) (.inr found)
    omega
  · have whole := digitCount_shortest_le_sub (digitCount_pos m.exact.digits) (.inl rfl)
    rw [Nat.sub_zero] at whole
    exact whole.trans many

end Magnitude

end LoxLexis
