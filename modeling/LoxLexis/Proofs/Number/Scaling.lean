import LoxLexis.Number.Decimal

/-!
# Decimals of one value

A number can be written with further zeros at its end and a smaller exponent.  Reading does not see
the difference: the quotient of units it rounds is the same quotient, expanded by a power of ten.
So a decimal without its trailing zeros is read as before, and since the search for the shortest
decimal of a magnitude only keeps what is read as that magnitude, and ends at its exact value, its
result is read as the magnitude.

## Main statements

* `Magnitude.nearest?_mul` — rounding sees a quotient, not its two terms
* `Decimal.magnitude?_shifted` — zeros at the end of a decimal do not matter
* `Magnitude.magnitude?_exact` — a magnitude is read off its exact value
* `Magnitude.magnitude?_shortest` — and off its shortest decimal
-/

namespace LoxLexis

/-! ### Quotients -/

section

variable {num den k : Nat}

theorem roundHalfEven_mul (num den : Nat) (hk : 0 < k) :
    roundHalfEven (num * k) (den * k) = roundHalfEven num den := by
  have below : num * k / (den * k) = num / den := Nat.mul_div_mul_right num den hk
  have excess : 2 * (num * k % (den * k)) = 2 * (num % den) * k := by
    rw [Nat.mul_mod_mul_right, Nat.mul_assoc]
  have less : 2 * (num % den) * k < den * k ↔ 2 * (num % den) < den := Nat.mul_lt_mul_right hk
  have more : den * k < 2 * (num % den) * k ↔ den < 2 * (num % den) := Nat.mul_lt_mul_right hk
  simp only [roundHalfEven, below, excess, less, more]

/-- A quotient without remainder is rounded to itself. -/
theorem roundHalfEven_of_dvd (hd : 0 < den) (h : den ∣ num) : roundHalfEven num den = num / den := by
  have exact : 2 * (num % den) < den := by
    rw [Nat.mod_eq_zero_of_dvd h]
    exact hd
  simp only [roundHalfEven, if_pos exact]

namespace Magnitude

theorem roundUnits_mul (num den : Nat) (hk : 0 < k) :
    roundUnits (num * k) (den * k) = roundUnits num den := by
  have spaced : spacing (num * k) (den * k) = spacing num den := by
    rw [spacing, Nat.mul_div_mul_right num den hk, spacing]
  rw [roundUnits, spaced, Nat.mul_right_comm, roundHalfEven_mul num _ hk, roundUnits]

/-- **Rounding sees a quotient, and not its two terms.** -/
theorem nearest?_mul (num den : Nat) (hk : 0 < k) :
    nearest? (num * k) (den * k) = nearest? num den := by
  simp only [nearest?, roundUnits_mul num den hk]

theorem ofRatio?_mul (num den : Nat) (hk : 0 < k) :
    ofRatio? (num * k) (den * k) = ofRatio? num den := by
  rw [ofRatio?, Nat.mul_right_comm, nearest?_mul _ _ hk, ofRatio?]

/-- A magnitude is the one nearest to itself. -/
theorem nearest?_units (m : Magnitude) : nearest? m.units 1 = some m := by
  have spaced : spacing m.units 1 = 2 ^ (m.units.log2 - 52) := by
    rw [spacing, Nat.div_one]
  have units : roundUnits m.units 1 = m.units := by
    rw [roundUnits, spaced, Nat.one_mul, roundHalfEven_of_dvd (Nat.two_pow_pos _) m.aligned,
      Nat.div_mul_cancel m.aligned]
  have bounded : (roundUnits m.units 1).log2 < 2098 := by
    rw [units]
    exact m.bounded
  rw [nearest?, dif_pos bounded]
  exact congrArg some (Magnitude.ext units)

end Magnitude

end

/-! ### Decimals -/

theorem digitCount_mul_ten {n : Nat} (hn : 0 < n) : digitCount (n * 10) = digitCount n + 1 := by
  have low := ten_pow_digitCount_le hn
  have high := lt_ten_pow_digitCount n
  have pos := digitCount_pos n
  refine Nat.le_antisymm ((digitCount_le_iff (Nat.succ_pos _)).mpr ?_) (Nat.lt_of_not_le fun h => ?_)
  · rw [Nat.pow_succ]
    exact Nat.mul_lt_mul_of_pos_right high (by decide)
  · have below := (digitCount_le_iff pos).mp h
    have split : 10 ^ digitCount n = 10 ^ (digitCount n - 1) * 10 := by
      rw [← Nat.pow_succ, Nat.succ_eq_add_one, Nat.sub_add_cancel pos]
    rw [split] at below
    omega

namespace Decimal

/-- A decimal with zeros at its end, and the exponent that makes up for them. -/
def shifted (d : Decimal) (k : Nat) : Decimal where
  digits := d.digits * 10 ^ k
  exponent := d.exponent - k

theorem shifted_zero (d : Decimal) : d.shifted 0 = d := by
  simp [shifted]

/-- The magnitude that the quotient of a decimal is rounded to, without regard to its size. -/
def ratio? (d : Decimal) : Option Magnitude :=
  match d.exponent with
  | .ofNat e => Magnitude.ofRatio? (d.digits * 10 ^ e) 1
  | .negSucc e => Magnitude.ofRatio? d.digits (10 ^ (e + 1))

theorem magnitude?_eq (d : Decimal) :
    d.magnitude? =
      if d.digits = 0 ∨ d.ceilingExponent < -323 then some .zero
      else if 309 < d.ceilingExponent then none
      else d.ratio? := rfl

theorem ratio?_shifted_one (d : Decimal) : (d.shifted 1).ratio? = d.ratio? := by
  obtain ⟨digits, exponent⟩ := d
  match exponent with
  | .ofNat 0 =>
    have expanded : Magnitude.ofRatio? (digits * 10) (1 * 10) = Magnitude.ofRatio? digits 1 :=
      Magnitude.ofRatio?_mul digits 1 (by decide)
    show Magnitude.ofRatio? (digits * 10 ^ 1) (10 ^ 1) = Magnitude.ofRatio? (digits * 10 ^ 0) 1
    rw [Nat.pow_zero, Nat.mul_one, Nat.pow_one, ← expanded, Nat.one_mul]
  | .ofNat (e + 1) =>
    have lower : Int.ofNat (e + 1) - ((1 : Nat) : Int) = Int.ofNat e :=
      Int.add_sub_cancel (Int.ofNat e) 1
    have digits' : digits * 10 ^ 1 * 10 ^ e = digits * 10 ^ (e + 1) := by
      rw [Nat.mul_assoc, ← Nat.pow_add, Nat.add_comm]
    simp only [ratio?, shifted, lower, digits']
  | .negSucc e =>
    show Magnitude.ofRatio? (digits * 10 ^ 1) (10 ^ (e + 1 + 1)) =
      Magnitude.ofRatio? digits (10 ^ (e + 1))
    rw [Nat.pow_succ 10 (e + 1)]
    exact Magnitude.ofRatio?_mul digits (10 ^ (e + 1)) (by decide)

theorem magnitude?_shifted_one (d : Decimal) : (d.shifted 1).magnitude? = d.magnitude? := by
  rcases Nat.eq_zero_or_pos d.digits with zero | pos
  · simp [magnitude?, shifted, zero]
  · have digits : (d.shifted 1).digits = d.digits * 10 := congrArg (d.digits * ·) (Nat.pow_one 10)
    have ceiling : (d.shifted 1).ceilingExponent = d.ceilingExponent := by
      rw [ceilingExponent, ceilingExponent, digits, digitCount_mul_ten pos]
      show d.exponent - 1 + ((digitCount d.digits + 1 : Nat) : Int) = _
      omega
    have nonzero : (d.shifted 1).digits = 0 ↔ d.digits = 0 := by
      rw [digits]
      omega
    simp only [magnitude?_eq, nonzero, ceiling, ratio?_shifted_one]

/-- **Zeros at the end of a decimal do not matter.** -/
theorem magnitude?_shifted (d : Decimal) (k : Nat) : (d.shifted k).magnitude? = d.magnitude? := by
  induction k with
  | zero => rw [shifted_zero]
  | succ k ih =>
      have one : d.shifted (k + 1) = (d.shifted k).shifted 1 := by
        simp only [shifted, Nat.pow_succ, Nat.pow_zero, Nat.one_mul, Nat.mul_assoc]
        congr 1
        omega
      rw [one, magnitude?_shifted_one, ih]

/-- A decimal without trailing zeros is read as before. -/
theorem magnitude?_stripped (d : Decimal) : d.stripped.magnitude? = d.magnitude? := by
  fun_induction stripped d with
  | case1 d h ih =>
      rw [ih, ← magnitude?_shifted_one]
      congr 1
      simp only [shifted, Nat.pow_one]
      have digits : d.digits / 10 * 10 = d.digits := by omega
      have exponent : d.exponent + 1 - ((1 : Nat) : Int) = d.exponent := by omega
      rw [digits, exponent]
  | case2 d h => rfl

end Decimal

/-! ### Shortest decimals -/

namespace Magnitude

variable {m : Magnitude}

theorem five_pow_pos (n : Nat) : 0 < 5 ^ n := Nat.pow_pos (by decide)

/-- A unit is a power of five of units of a power of ten. -/
theorem nearest?_five_two (units n : Nat) :
    nearest? (units * (5 ^ n * 2 ^ n)) (10 ^ n) = nearest? units 1 := by
  have tens : 10 ^ n = 1 * (5 ^ n * 2 ^ n) := by
    rw [Nat.one_mul, ← Nat.mul_pow]
  rw [tens, nearest?_mul _ _ (Nat.mul_pos (five_pow_pos n) (Nat.two_pow_pos n))]

theorem five_pow_le (pos : 0 < m.units) (n : Nat) : 5 ^ n ≤ m.units * 5 ^ n :=
  Nat.le_mul_of_pos_left (5 ^ n) pos

theorem lt_two_pow (k : Nat) (pos : 0 < m.units) (h : m.units.log2 < k) : m.units < 2 ^ k :=
  (Nat.log2_lt (Nat.ne_of_gt pos)).mp h

theorem mul_five_pow_lt {k : Nat} (h : m.units < 2 ^ k) (n : Nat) :
    m.units * 5 ^ n < 2 ^ k * 5 ^ n := Nat.mul_lt_mul_of_pos_right h (five_pow_pos n)

theorem digits_exact (m : Magnitude) : m.exact.digits = m.units * 5 ^ (1074 : Nat) := rfl

theorem exponent_exact (m : Magnitude) : m.exact.exponent = .negSucc 1073 := rfl

/-- Read as a quotient of units, the exact value of a magnitude is the magnitude. -/
theorem ratio?_exact (m : Magnitude) : m.exact.ratio? = some m := by
  have places : 1073 + 1 = 1074 := rfl
  rw [Decimal.ratio?, exponent_exact]
  show ofRatio? m.exact.digits (10 ^ (1073 + 1)) = some m
  rw [places, digits_exact, ofRatio?, Nat.mul_assoc, nearest?_five_two m.units 1074,
    nearest?_units]

/-- The exact value of a magnitude other than zero lies within the bounds of the format. -/
theorem ceilingExponent_exact (pos : 0 < m.units) :
    -323 ≤ m.exact.ceilingExponent ∧ m.exact.ceilingExponent ≤ 309 := by
  have low : 10 ^ (750 : Nat) ≤ m.exact.digits := by
    rw [digits_exact]
    exact Nat.le_trans (by decide +kernel) (five_pow_le pos 1074)
  have units : m.units < 2 ^ (2098 : Nat) := lt_two_pow 2098 pos m.bounded
  have high : m.exact.digits < 10 ^ (1383 : Nat) := by
    rw [digits_exact]
    exact Nat.lt_of_lt_of_le (mul_five_pow_lt units 1074) (by decide +kernel)
  have most : digitCount m.exact.digits ≤ 1383 := (digitCount_le_iff (by decide)).mpr high
  have least : ¬ digitCount m.exact.digits ≤ 750 :=
    fun h => Nat.not_le_of_lt ((digitCount_le_iff (by decide)).mp h) low
  show -323 ≤ (-1074 : Int) + digitCount m.exact.digits ∧
    (-1074 : Int) + digitCount m.exact.digits ≤ 309
  omega

/-- **The exact value of a magnitude is read as the magnitude.** -/
theorem magnitude?_exact (m : Magnitude) : m.exact.magnitude? = some m := by
  rcases Nat.eq_zero_or_pos m.units with zero | pos
  · have digits : m.exact.digits = 0 := by
      simp only [digits_exact, zero, Nat.zero_mul]
    rw [Decimal.magnitude?_eq, if_pos (.inl digits)]
    exact congrArg some (Magnitude.ext zero.symm)
  · have digits : 0 < m.exact.digits := Nat.mul_pos pos (five_pow_pos 1074)
    obtain ⟨low, high⟩ := ceilingExponent_exact pos
    rw [Decimal.magnitude?_eq, if_neg (by omega), if_neg (by omega), ratio?_exact]

/-- Whatever digits are dropped, what is left is read as the magnitude. -/
theorem magnitude?_dropping (m : Magnitude) (k : Nat) : (m.dropping k).magnitude? = some m := by
  induction k with
  | zero => exact m.magnitude?_exact
  | succ k ih =>
      rw [dropping_succ]
      cases found : m.onGrid? (k + 1) with
      | none => exact ih
      | some d =>
          have reads : m.readBack d = true := List.find?_some found
          exact of_decide_eq_true reads

/-- **The shortest decimal of a magnitude is read as the magnitude.** -/
theorem magnitude?_shortest (m : Magnitude) : m.shortest.magnitude? = some m := by
  rw [shortest, Decimal.magnitude?_stripped, magnitude?_dropping]

end Magnitude

end LoxLexis
