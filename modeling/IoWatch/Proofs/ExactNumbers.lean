import IoWatch.Proofs.Magnitudes

/-!
# Numbers that are not rounded

A quotient by a power of two keeps the significand and lowers the scale. As long as it is not below
one, the scale has room for that, and so the quotient is exact. Integers of up to 53 bits are exact
too. A longer one is rounded at its own scale, to one that is at most half of the last place away.
What is too large for a finite number is infinite.

## Main results

* `Binary64.round_of_le`: what is too large is infinite
* `Binary64.exists_div_eq`: a number that is not below a power of two is divided by it exactly
* `Binary64.exists_ofInt_eq`: the number that an integer is read as
* `Binary64.rounded_integer_of_lt`: an integer of at most 53 bits is a number
* `Binary64.rounded_integer_within`: how far away a longer one is rounded to
* `Binary64.exists_ofInt_eq_of_lt`, `Binary64.IsFinite.exists_eq_of_one_le`: integers, and what is
  not below one, as numbers
-/

namespace IoWatch

namespace Binary64

variable {s : Bool} {m e a k n : Nat} {x y : Binary64}

theorem unitsPerOne_pos : 0 < unitsPerOne := by
  unfold unitsPerOne
  generalize 1074 = b
  exact pow_two_pos b

theorem exists_unitsPerOne_eq : ∃ k, unitsPerOne = 2 * Nat.pow 2 k := by
  unfold unitsPerOne
  have hpos : 1 ≤ 1074 := by decide
  generalize 1074 = bits at hpos
  refine ⟨bits - 1, ?_⟩
  have h := pow_two_add 1 (bits - 1)
  rwa [Nat.add_sub_cancel' hpos] at h

theorem pow_two_le_pow_two {a b : Nat} (h : a ≤ b) : Nat.pow 2 a ≤ Nat.pow 2 b :=
  Nat.pow_le_pow_right (by decide) h

/-! ## Exact quotients -/

/-- No finite number is too large. -/
theorem Canonical.lt_leastTooLarge (c : Canonical m e) : m * Nat.pow 2 e < leastTooLarge := by
  have hle : Nat.pow 2 (53 + e) ≤ leastTooLarge := by
    have he : 53 + e ≤ 2098 := by
      have := c.2.1
      omega
    unfold leastTooLarge
    generalize 2098 = bound at he
    exact pow_two_le_pow_two he
  rw [pow_two_add] at hle
  exact Nat.lt_of_lt_of_le (Nat.mul_lt_mul_of_pos_right c.1 (pow_two_pos e)) hle

/-- What is not above a number is not rounded above it. -/
theorem Canonical.rounded_le {num den : Nat} (c : Canonical m e) (hden : 0 < den)
    (h : num ≤ m * Nat.pow 2 e * den) : rounded num den ≤ m * Nat.pow 2 e := by
  rw [← rounded_mul c.1 hden e]
  exact rounded_mono hden hden (Nat.mul_le_mul_right den h)

theorem Canonical.rounded_lt {num den : Nat} (c : Canonical m e) (hden : 0 < den)
    (h : num ≤ m * Nat.pow 2 e * den) : rounded num den < leastTooLarge :=
  Nat.lt_of_le_of_lt (c.rounded_le hden h) c.lt_leastTooLarge

/-- What is too large is infinite. Halving the significand into the next scale leaves the magnitude
alone. -/
theorem ofParts_of_le (s : Bool) (h : leastTooLarge ≤ m * Nat.pow 2 e) :
    ofParts s m e = .infinity s := by
  by_cases hm : m = Nat.pow 2 53
  · rw [ofParts, if_pos hm]
    apply dif_neg
    intro c
    have hlt := c.lt_leastTooLarge
    rw [← pow_two_add, Nat.add_left_comm, Nat.add_comm, pow_two_add] at hlt
    rw [hm] at h
    exact Nat.lt_irrefl _ (Nat.lt_of_lt_of_le hlt h)
  · rw [ofParts, if_neg hm]
    apply dif_neg
    intro c
    exact Nat.lt_irrefl _ (Nat.lt_of_lt_of_le c.lt_leastTooLarge h)

theorem round_of_le (s : Bool) {num den : Nat} (h : leastTooLarge ≤ rounded num den) :
    round s num den = .infinity s :=
  ofParts_of_le s h

/-- The scale of a number that is not below a power of two. -/
theorem Canonical.le_scale (c : Canonical m e) (h : Nat.pow 2 a * unitsPerOne ≤ m * Nat.pow 2 e) :
    a + 1022 ≤ e := by
  have hlt : Nat.pow 2 (a + 1074) < Nat.pow 2 (53 + e) := by
    rw [pow_add_units, pow_two_add]
    exact Nat.lt_of_le_of_lt h (Nat.mul_lt_mul_of_pos_right c.1 (pow_two_pos e))
  have := lt_of_pow_two_lt hlt
  omega

/-- A number that is not below a power of two is divided by it without rounding. The significand
stays, and the scale is smaller by the power. -/
theorem exists_div_eq (s : Bool) (c : Canonical m e) (hy : y.IsBetween (a + 1074) (a + 1074))
    (h : Nat.pow 2 a * unitsPerOne ≤ m * Nat.pow 2 e) :
    ∃ m' e' c', finite s m e c / y = finite s m' e' c' ∧
      m' * Nat.pow 2 e' * Nat.pow 2 a = m * Nat.pow 2 e := by
  obtain ⟨m₀, e₀, c₀, rfl, hlow, hhigh⟩ := hy
  have hscale := c.le_scale h
  have hden : m₀ * Nat.pow 2 e₀ = Nat.pow 2 a * unitsPerOne := by
    rw [← pow_add_units]
    exact Nat.le_antisymm hhigh hlow
  have hpos : 0 < Nat.pow 2 a * unitsPerOne := Nat.mul_pos (pow_two_pos a) unitsPerOne_pos
  have hpow : Nat.pow 2 (e - a) * Nat.pow 2 a = Nat.pow 2 e := by
    rw [← pow_two_add, Nat.sub_add_cancel (by omega)]
  have hnum : m * Nat.pow 2 e * unitsPerOne =
      m * Nat.pow 2 (e - a) * (Nat.pow 2 a * unitsPerOne) := by
    rw [← hpow, Nat.mul_assoc, Nat.mul_assoc, Nat.mul_assoc]
  have hrounded : rounded (m * Nat.pow 2 e * unitsPerOne) (Nat.pow 2 a * unitsPerOne) =
      m * Nat.pow 2 (e - a) := by
    rw [hnum]
    exact rounded_mul c.1 hpos (e - a)
  have hlt : m * Nat.pow 2 (e - a) < leastTooLarge := by
    refine Nat.lt_of_le_of_lt ?_ c.lt_leastTooLarge
    exact Nat.mul_le_mul_left m (pow_two_le_pow_two (Nat.sub_le e a))
  rw [finite_div_finite (by rwa [hden]), hden, Bool.bne_false]
  obtain ⟨m', e', c', hround, hvalue⟩ := exists_round_eq s hpos (hrounded.symm ▸ hlt)
  refine ⟨m', e', c', hround, ?_⟩
  rw [hvalue, hrounded, Nat.mul_assoc, hpow]

/-! ## Integers -/

/-- The scale at which an integer is rounded. -/
theorem scaleOf_integer_le (hn : n < Nat.pow 2 (k + 53)) :
    scaleOf (n * unitsPerOne) 1 ≤ k + 1074 := by
  by_cases hzero : scaleOf (n * unitsPerOne) 1 = 0
  · omega
  have hlt : Nat.pow 2 (scaleOf (n * unitsPerOne) 1 + 52) < Nat.pow 2 (k + 53 + 1074) := by
    refine Nat.lt_of_le_of_lt (pow_scaleOf_le hzero) ?_
    rw [Nat.div_one, pow_add_units]
    exact Nat.mul_lt_mul_of_pos_right hn unitsPerOne_pos
  have := lt_of_pow_two_lt hlt
  omega

/-- An integer of at most 53 bits is a number. -/
theorem rounded_integer_of_lt (hn : n < Nat.pow 2 53) :
    rounded (n * unitsPerOne) 1 = n * unitsPerOne := by
  unfold unitsPerOne
  generalize 1074 = b
  have h := rounded_mul hn Nat.one_pos b
  rwa [Nat.mul_one] at h

/-- An integer of `k + 53` bits is rounded to one that is at most half of `2 ^ k` away: the last
place is at most `2 ^ k`. -/
theorem rounded_integer_within (hn : n < Nat.pow 2 (k + 53)) :
    2 * (n * unitsPerOne) ≤ 2 * rounded (n * unitsPerOne) 1 + Nat.pow 2 k * unitsPerOne ∧
      2 * rounded (n * unitsPerOne) 1 ≤ 2 * (n * unitsPerOne) + Nat.pow 2 k * unitsPerOne := by
  have hunit := pow_two_le_pow_two (scaleOf_integer_le hn)
  rw [pow_add_units] at hunit
  rw [rounded, significandOf]
  generalize scaleOf (n * unitsPerOne) 1 = scale at hunit
  have hpos : 0 < 1 * Nat.pow 2 scale := Nat.mul_pos Nat.one_pos (pow_two_pos scale)
  have hlow := le_roundHalfEven hpos (n * unitsPerOne)
  have hhigh := roundHalfEven_le hpos (n * unitsPerOne)
  rw [Nat.one_mul] at hlow hhigh ⊢
  rw [Nat.mul_comm (Nat.pow 2 scale)] at hlow hhigh
  omega

/-- An integer is read as a number of the magnitude that it is rounded to. -/
theorem exists_ofInt_eq {bits : Nat} (hn : n < Nat.pow 2 bits) (hbits : bits + 1074 < 2098) :
    ∃ m e c, ofInt n = finite false m e c ∧ m * Nat.pow 2 e = rounded (n * unitsPerOne) 1 := by
  have hle : rounded (n * unitsPerOne) 1 ≤ Nat.pow 2 (bits + 1074) := by
    apply rounded_le_pow Nat.one_pos
    rw [Nat.mul_one, pow_add_units]
    exact Nat.mul_le_mul_right unitsPerOne (Nat.le_of_lt hn)
  have hlt := Nat.lt_of_le_of_lt hle (pow_two_lt_leastTooLarge_iff.mpr hbits)
  have hsign : decide ((n : Int) < 0) = false := decide_eq_false (by omega)
  rw [ofInt, hsign, Int.natAbs_natCast]
  exact exists_round_eq false Nat.one_pos hlt

theorem exists_ofInt_eq_of_lt (hn : n < Nat.pow 2 53) :
    ∃ m e c, ofInt n = finite false m e c ∧ m * Nat.pow 2 e = n * unitsPerOne := by
  have h := exists_ofInt_eq hn (by decide)
  rwa [rounded_integer_of_lt hn] at h

theorem isFinite_one : (1 : Binary64).IsFinite := by
  obtain ⟨m, e, c, hone, -⟩ := exists_ofInt_eq_of_lt (n := 1) (by decide)
  exact ⟨false, m, e, c, hone⟩

/-- A number that is not below one is positive and has at least the units of one. -/
theorem IsFinite.exists_eq_of_one_le (hx : x.IsFinite) (h : 1 ≤ x) :
    ∃ m e c, x = finite false m e c ∧ unitsPerOne ≤ m * Nat.pow 2 e := by
  obtain ⟨m₁, e₁, c₁, hone, hunits⟩ := exists_ofInt_eq_of_lt (n := 1) (by decide)
  obtain ⟨s, m, e, c, rfl⟩ := hx
  rw [ofNat_eq, hone, finite_le_finite_iff, signedUnits_finite, hunits, Nat.one_mul] at h
  cases s with
  | false =>
    rw [signedUnits_finite] at h
    exact ⟨m, e, c, rfl, by omega⟩
  | true =>
    have hpos := unitsPerOne_pos
    replace h : (unitsPerOne : Int) ≤ -(m * Nat.pow 2 e : Nat) := h
    omega

end Binary64

end IoWatch
