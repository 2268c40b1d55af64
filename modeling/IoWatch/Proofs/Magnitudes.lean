import IoWatch.Numeric.Binary64

/-!
# Magnitudes of rounded numbers

A quotient is rounded at the scale at which it has 53 bits before the point. Were no magnitude too
large to be finite, that would be the magnitude of the result in every case. It keeps the order of
quotients and leaves the magnitudes of numbers alone. So a quotient between two powers of two is
rounded to something between them, and what is then below the least magnitude that is too large is
finite.

## Main definitions

* `Binary64.significandOf`, `Binary64.rounded`: what a quotient is rounded to, however large
* `Binary64.leastTooLarge`: the least magnitude beyond the finite numbers
* `Binary64.IsFinite`, `Binary64.IsAmount`: numbers that are finite, and not negative
* `Binary64.IsBetween`: the range of a number above zero, given by powers of two

## Main results

* `Binary64.rounded_mono`: the order of quotients is kept
* `Binary64.rounded_mul`: at most 53 bits in front of a power of two are left alone
* `Binary64.exists_round_eq`: what is not too large is finite and has that magnitude
* `Binary64.IsFinite.le_iff`, `Binary64.IsFinite.lt_iff`: finite numbers are ordered by their values
* `Binary64.finite_sub`, `Binary64.finite_mul_finite`, `Binary64.finite_div_finite`: the results of
  arithmetic as rounded quotients
* `Binary64.isBetween_round`, `Binary64.IsBetween.div`: the range of what is rounded
-/

namespace IoWatch

namespace Binary64

/-- The significand that a quotient is rounded to, at its scale. -/
def significandOf (num den : Nat) : Nat := roundHalfEven num (den * Nat.pow 2 (scaleOf num den))

/-- The magnitude that a quotient is rounded to, were no magnitude too large. -/
def rounded (num den : Nat) : Nat := significandOf num den * Nat.pow 2 (scaleOf num den)

/-- The least magnitude that is too large for a finite number. -/
def leastTooLarge : Nat := Nat.pow 2 2098

variable {num den num' den' m e : Nat}

theorem pow_two_pos (n : Nat) : 0 < Nat.pow 2 n := Nat.two_pow_pos n

theorem pow_two_add (a b : Nat) : Nat.pow 2 (a + b) = Nat.pow 2 a * Nat.pow 2 b :=
  Nat.pow_add 2 a b

theorem pow_add_units (a : Nat) : Nat.pow 2 (a + 1074) = Nat.pow 2 a * unitsPerOne := by
  unfold unitsPerOne
  generalize 1074 = b
  exact pow_two_add a b

theorem lt_of_pow_two_lt {a b : Nat} (h : Nat.pow 2 a < Nat.pow 2 b) : a < b :=
  (Nat.pow_lt_pow_iff_right (by decide)).mp h

theorem pow_two_lt_leastTooLarge_iff {k : Nat} : Nat.pow 2 k < leastTooLarge ↔ k < 2098 := by
  unfold leastTooLarge
  generalize 2098 = bound
  exact Nat.pow_lt_pow_iff_right (by decide)

theorem leastTooLarge_pos : 0 < leastTooLarge := by
  unfold leastTooLarge
  generalize 2098 = b
  exact pow_two_pos b

/-! ## Scales -/

theorem lt_pow_scaleOf (num den : Nat) : num / den < Nat.pow 2 (scaleOf num den + 53) :=
  Nat.lt_of_lt_of_le Nat.lt_log2_self
    (Nat.pow_le_pow_right (by decide) (by unfold scaleOf; omega))

theorem pow_scaleOf_le (h : scaleOf num den ≠ 0) :
    Nat.pow 2 (scaleOf num den + 52) ≤ num / den := by
  have hlog : scaleOf num den + 52 = (num / den).log2 := by
    unfold scaleOf at h ⊢
    omega
  rw [hlog]
  apply Nat.log2_self_le
  intro hzero
  rw [scaleOf, hzero] at h
  exact h (by decide)

/-- A quotient is at least `2 ^ (scale + 52)` and below `2 ^ (scale + 53)`, so the larger one does
not have the smaller scale. -/
theorem scaleOf_mono (h : num / den ≤ num' / den') : scaleOf num den ≤ scaleOf num' den' := by
  by_cases hzero : scaleOf num den = 0
  · omega
  have hlt : Nat.pow 2 (scaleOf num den + 52) < Nat.pow 2 (scaleOf num' den' + 53) :=
    Nat.lt_of_le_of_lt (Nat.le_trans (pow_scaleOf_le hzero) h) (lt_pow_scaleOf num' den')
  have := lt_of_pow_two_lt hlt
  omega

/-- The scale of a magnitude with 53 bits in front of a power of two. At a larger one it would have
more bits. -/
theorem scaleOf_mul_le (hm : m < Nat.pow 2 53) (hden : 0 < den) (e : Nat) :
    scaleOf (m * Nat.pow 2 e * den) den ≤ e := by
  by_cases hzero : scaleOf (m * Nat.pow 2 e * den) den = 0
  · omega
  have hlt : Nat.pow 2 (scaleOf (m * Nat.pow 2 e * den) den + 52) < Nat.pow 2 (53 + e) := by
    refine Nat.lt_of_le_of_lt (pow_scaleOf_le hzero) ?_
    rw [Nat.mul_div_cancel _ hden, pow_two_add]
    exact Nat.mul_lt_mul_of_pos_right hm (pow_two_pos e)
  have := lt_of_pow_two_lt hlt
  omega

/-! ## Significands -/

theorem significandOf_le (hden : 0 < den) : significandOf num den ≤ Nat.pow 2 53 := by
  apply roundHalfEven_le_of_le (Nat.mul_pos hden (pow_two_pos _))
  have hlt := (Nat.div_lt_iff_lt_mul hden).mp (lt_pow_scaleOf num den)
  rw [Nat.mul_left_comm, ← pow_two_add, Nat.mul_comm, Nat.add_comm]
  exact Nat.le_of_lt hlt

theorem le_significandOf (hden : 0 < den) (h : scaleOf num den ≠ 0) :
    Nat.pow 2 52 ≤ significandOf num den := by
  apply le_roundHalfEven_of_le (Nat.mul_pos hden (pow_two_pos _))
  have hle := (Nat.le_div_iff_mul_le hden).mp (pow_scaleOf_le h)
  rwa [Nat.mul_left_comm, ← pow_two_add, Nat.mul_comm, Nat.add_comm]

/-! ## Rounded magnitudes -/

/-- The order of quotients is kept. Between two scales stands `2 ^ (scale + 53)`, and at one scale
it is the significands that compare. -/
theorem rounded_mono (hden : 0 < den) (hden' : 0 < den') (h : num * den' ≤ num' * den) :
    rounded num den ≤ rounded num' den' := by
  have hscale := scaleOf_mono (div_le_div_of_mul_le_mul hden hden' h)
  rcases Nat.lt_or_eq_of_le hscale with hlt | heq
  · have hne : scaleOf num' den' ≠ 0 := by omega
    calc rounded num den ≤ Nat.pow 2 53 * Nat.pow 2 (scaleOf num den) :=
          Nat.mul_le_mul_right _ (significandOf_le hden)
      _ = Nat.pow 2 52 * Nat.pow 2 (scaleOf num den + 1) := by
          rw [← pow_two_add, ← pow_two_add, Nat.add_left_comm, Nat.add_comm]
      _ ≤ Nat.pow 2 52 * Nat.pow 2 (scaleOf num' den') :=
          Nat.mul_le_mul_left _ (Nat.pow_le_pow_right (by decide) hlt)
      _ ≤ rounded num' den' := Nat.mul_le_mul_right _ (le_significandOf hden' hne)
  · rw [rounded, rounded, significandOf, significandOf, heq]
    apply Nat.mul_le_mul_right
    apply roundHalfEven_mono (Nat.mul_pos hden (pow_two_pos _)) (Nat.mul_pos hden' (pow_two_pos _))
    rw [← Nat.mul_assoc, ← Nat.mul_assoc]
    exact Nat.mul_le_mul_right _ h

/-- At most 53 bits in front of a power of two are left alone. The last place is at most the power,
so the magnitude is a whole number of it. -/
theorem rounded_mul (hm : m < Nat.pow 2 53) (hden : 0 < den) (e : Nat) :
    rounded (m * Nat.pow 2 e * den) den = m * Nat.pow 2 e := by
  have hscale := scaleOf_mul_le hm hden e
  rw [rounded, significandOf]
  generalize scaleOf (m * Nat.pow 2 e * den) den = scale at hscale
  have hpow : Nat.pow 2 (e - scale) * Nat.pow 2 scale = Nat.pow 2 e := by
    rw [← pow_two_add, Nat.sub_add_cancel hscale]
  have hnum : m * Nat.pow 2 e * den = m * Nat.pow 2 (e - scale) * (den * Nat.pow 2 scale) := by
    rw [← hpow, Nat.mul_left_comm _ den, Nat.mul_comm _ den, Nat.mul_assoc m]
  rw [hnum, roundHalfEven_mul (Nat.mul_pos hden (pow_two_pos scale)), Nat.mul_assoc, hpow]

theorem rounded_pow (hden : 0 < den) (a : Nat) : rounded (Nat.pow 2 a * den) den = Nat.pow 2 a := by
  have h := rounded_mul (m := 1) (by decide) hden a
  rwa [Nat.one_mul] at h

theorem rounded_zero (den : Nat) : rounded 0 den = 0 := by
  rw [rounded, significandOf, roundHalfEven, Nat.zero_div, Nat.zero_mod]
  split
  · exact Nat.zero_mul _
  · rw [if_neg (by omega)]
    exact Nat.zero_mul _

theorem pow_le_rounded {a : Nat} (hden : 0 < den) (h : Nat.pow 2 a * den ≤ num) :
    Nat.pow 2 a ≤ rounded num den := by
  rw [← rounded_pow hden a]
  exact rounded_mono hden hden (Nat.mul_le_mul_right den h)

theorem rounded_le_pow {a : Nat} (hden : 0 < den) (h : num ≤ Nat.pow 2 a * den) :
    rounded num den ≤ Nat.pow 2 a := by
  rw [← rounded_pow hden a]
  exact rounded_mono hden hden (Nat.mul_le_mul_right den h)

/-! ## Numbers -/

/-- What is not too large is finite. A significand that has outgrown its bits is halved into the
next scale. -/
theorem ofParts_of_lt (s : Bool) (hm : m ≤ Nat.pow 2 53) (he : e = 0 ∨ Nat.pow 2 52 ≤ m)
    (h : m * Nat.pow 2 e < leastTooLarge) :
    ∃ m' e' c, ofParts s m e = .finite s m' e' c ∧ m' * Nat.pow 2 e' = m * Nat.pow 2 e := by
  have hscale : ∀ k, Nat.pow 2 k ≤ m → k + e < 2098 := by
    intro k hk
    rw [← pow_two_lt_leastTooLarge_iff, pow_two_add]
    exact Nat.lt_of_le_of_lt (Nat.mul_le_mul_right _ hk) h
  rcases Nat.lt_or_eq_of_le hm with hlt | rfl
  · have hcanonical : Canonical m e := by
      refine ⟨hlt, ?_, he⟩
      rcases he with hzero | hle
      · omega
      · have := hscale 52 hle
        omega
    refine ⟨m, e, hcanonical, ?_, rfl⟩
    rw [ofParts, if_neg (Nat.ne_of_lt hlt)]
    exact dif_pos hcanonical
  · have hcanonical : Canonical (Nat.pow 2 52) (e + 1) := by
      refine ⟨by decide, ?_, .inr (Nat.le_refl _)⟩
      have := hscale 53 (Nat.le_refl _)
      omega
    refine ⟨Nat.pow 2 52, e + 1, hcanonical, ?_, ?_⟩
    · rw [ofParts, if_pos rfl]
      exact dif_pos hcanonical
    · rw [← pow_two_add, ← pow_two_add, Nat.add_left_comm, Nat.add_comm]

/-- What is not too large is finite and has the magnitude that is rounded to. -/
theorem exists_round_eq (s : Bool) (hden : 0 < den) (h : rounded num den < leastTooLarge) :
    ∃ m e c, round s num den = .finite s m e c ∧ m * Nat.pow 2 e = rounded num den := by
  apply ofParts_of_lt s (significandOf_le hden) _ h
  by_cases hzero : scaleOf num den = 0
  · exact .inl hzero
  · exact .inr (le_significandOf hden hzero)

/-! ## Amounts -/

/-- A number is neither infinite nor no number. -/
def IsFinite (x : Binary64) : Prop := ∃ s m e c, x = .finite s m e c

/-- A number is finite and not below zero, and not the negative zero. -/
structure IsAmount (x : Binary64) : Prop where
  isFinite : x.IsFinite
  nonneg : 0 ≤ x
  isNegative : x.isNegative = false

variable {x y : Binary64} {a b c d k l : Nat}

theorem round_zero (s : Bool) (den : Nat) : round s 0 den = zero s := by
  have hscale : scaleOf 0 den = 0 := by
    rw [scaleOf, Nat.zero_div]
    rfl
  simp only [round, hscale, roundHalfEven, Nat.zero_div, Nat.zero_mod]
  split <;> rfl

theorem ofNat_eq (n : Nat) : (OfNat.ofNat n : Binary64) = ofInt n := rfl

theorem zero_eq : (0 : Binary64) = zero false := by
  rw [ofNat_eq, ofInt, Int.natAbs_natCast, Nat.zero_mul, round_zero]
  rfl

theorem finite_le_finite_iff {s s' : Bool} {m m' e e' : Nat} {h : Canonical m e}
    {h' : Canonical m' e'} : finite s m e h ≤ finite s' m' e' h' ↔
      (finite s m e h).signedUnits ≤ (finite s' m' e' h').signedUnits := by
  show le _ _ = true ↔ _
  simp only [le, decide_eq_true_eq]

theorem signedUnits_finite (h : Canonical m e) :
    (finite false m e h).signedUnits = (m * Nat.pow 2 e : Nat) := rfl

theorem zero_le_finite (h : Canonical m e) : 0 ≤ finite false m e h := by
  rw [zero_eq]
  exact finite_le_finite_iff.mpr (Int.natCast_nonneg _)

theorem isAmount_zero : (0 : Binary64).IsAmount := by
  rw [zero_eq]
  exact ⟨⟨false, 0, 0, _, rfl⟩, zero_le_finite (by decide), rfl⟩

/-! ## Order -/

namespace IsFinite

variable {z : Binary64}

theorem le_iff (hx : x.IsFinite) (hy : y.IsFinite) : x ≤ y ↔ x.signedUnits ≤ y.signedUnits := by
  obtain ⟨s, m, e, c, rfl⟩ := hx
  obtain ⟨s', m', e', c', rfl⟩ := hy
  exact finite_le_finite_iff

theorem lt_iff (hx : x.IsFinite) (hy : y.IsFinite) : x < y ↔ x.signedUnits < y.signedUnits := by
  have hlt : x < y ↔ x ≤ y ∧ ¬ y ≤ x := by
    show (Binary64.le x y && !Binary64.le y x) = true ↔ _
    rw [Bool.and_eq_true, Bool.not_eq_true', ← Bool.not_eq_true]
    rfl
  rw [hlt, hx.le_iff hy, hy.le_iff hx, Int.lt_iff_le_and_not_ge]

theorem not_lt_iff (hx : x.IsFinite) (hy : y.IsFinite) : ¬ x < y ↔ y ≤ x := by
  rw [hx.lt_iff hy, hy.le_iff hx, Int.not_lt]

theorem le_of_lt (hx : x.IsFinite) (hy : y.IsFinite) (h : x < y) : x ≤ y :=
  (hx.le_iff hy).mpr (Int.le_of_lt ((hx.lt_iff hy).mp h))

theorem le_rfl (hx : x.IsFinite) : x ≤ x := (hx.le_iff hx).mpr (Int.le_refl _)

theorem lt_of_le_of_lt (hx : x.IsFinite) (hy : y.IsFinite) (hz : z.IsFinite) (hxy : x ≤ y)
    (hyz : y < z) : x < z := by
  rw [hx.le_iff hy] at hxy
  rw [hy.lt_iff hz] at hyz
  exact (hx.lt_iff hz).mpr (Int.lt_of_le_of_lt hxy hyz)

end IsFinite

theorem signedUnits_of_nonneg (hx : x.IsFinite) (h : 0 ≤ x) : x.signedUnits = x.units := by
  rw [isAmount_zero.isFinite.le_iff hx, zero_eq] at h
  replace h : 0 ≤ x.signedUnits := h
  rw [signedUnits] at h ⊢
  split at h
  next hsign =>
    rw [if_pos hsign]
    omega
  next hsign => rw [if_neg hsign]

/-- Numbers that are not negative are ordered by their magnitudes. -/
theorem le_iff_units_le (hx : x.IsFinite) (hy : y.IsFinite) (hx₀ : 0 ≤ x) (hy₀ : 0 ≤ y) :
    x ≤ y ↔ x.units ≤ y.units := by
  rw [hx.le_iff hy, signedUnits_of_nonneg hx hx₀, signedUnits_of_nonneg hy hy₀, Int.ofNat_le]

/-! ## Ranges -/

/-- A number is positive and finite and stands between two powers of two, counted in units of the
least positive magnitude. -/
def IsBetween (x : Binary64) (a b : Nat) : Prop :=
  ∃ m e c, x = .finite false m e c ∧ Nat.pow 2 a ≤ m * Nat.pow 2 e ∧
    m * Nat.pow 2 e ≤ Nat.pow 2 b

namespace IsBetween

theorem pos (h : x.IsBetween a b) : 0 < x := by
  obtain ⟨m, e, c, rfl, hlow, -⟩ := h
  have hpos := Nat.lt_of_lt_of_le (pow_two_pos a) hlow
  have hnot : ¬ finite false m e c ≤ 0 := by
    rw [zero_eq, zero, finite_le_finite_iff, signedUnits_finite, signedUnits_finite]
    omega
  show (le _ _ && !le _ _) = true
  rw [Bool.and_eq_true, Bool.not_eq_true']
  exact ⟨zero_le_finite c, Bool.eq_false_iff.mpr hnot⟩

theorem ne_zero (h : x.IsBetween a b) : x ≠ 0 := by
  obtain ⟨m, e, c, rfl, hlow, -⟩ := h
  rw [zero_eq]
  rintro heq
  cases heq
  exact absurd (Nat.lt_of_lt_of_le (pow_two_pos a) hlow) (by decide)

theorem isAmount (h : x.IsBetween a b) : x.IsAmount := by
  obtain ⟨m, e, c, rfl, hlow, -⟩ := h
  exact ⟨⟨_, _, _, _, rfl⟩, zero_le_finite c, rfl⟩

end IsBetween

theorem isBetween_round (hden : 0 < den) (hlow : Nat.pow 2 a * den ≤ num)
    (hhigh : num ≤ Nat.pow 2 b * den) (hb : b < 2098) : (round false num den).IsBetween a b := by
  have hle := rounded_le_pow hden hhigh
  have hlt := Nat.lt_of_le_of_lt hle (pow_two_lt_leastTooLarge_iff.mpr hb)
  obtain ⟨m, e, c, hround, hrounded⟩ := exists_round_eq false hden hlt
  exact ⟨m, e, c, hround, hrounded ▸ pow_le_rounded hden hlow, hrounded ▸ hle⟩

theorem isBetween_ofInt {i : Int} (hlow : Nat.pow 2 a ≤ i) (hhigh : i ≤ Nat.pow 2 b)
    (hb : b + 1074 < 2098) : (ofInt i).IsBetween (a + 1074) (b + 1074) := by
  have hpos := pow_two_pos a
  have hsign : decide (i < 0) = false := decide_eq_false (by omega)
  rw [ofInt, hsign]
  apply isBetween_round Nat.one_pos _ _ hb
  · rw [Nat.mul_one, pow_add_units]
    exact Nat.mul_le_mul_right _ (by omega)
  · rw [Nat.mul_one, pow_add_units]
    exact Nat.mul_le_mul_right _ (by omega)

theorem finite_div_finite {s s' : Bool} {m m' e e' : Nat} {h : Canonical m e}
    {h' : Canonical m' e'} (hpos : 0 < m' * Nat.pow 2 e') :
    finite s m e h / finite s' m' e' h' =
      round (s != s') (m * Nat.pow 2 e * unitsPerOne) (m' * Nat.pow 2 e') :=
  if_neg (Nat.ne_of_gt hpos)

theorem mul_eq (x y : Binary64) : x * y = mul x y := rfl

theorem finite_mul_finite {s s' : Bool} {m' e' : Nat} (c : Canonical m e) (c' : Canonical m' e') :
    finite s m e c * finite s' m' e' c' =
      round (s != s') (m * Nat.pow 2 e * (m' * Nat.pow 2 e')) unitsPerOne := by
  rw [mul_eq]
  unfold mul
  rfl

/-- The difference to a smaller number. -/
theorem finite_sub (c : Canonical m e) (hy : y.IsFinite) (hnonneg : 0 ≤ y)
    (hle : y ≤ finite false m e c) :
    finite false m e c - y = round false (m * Nat.pow 2 e - y.units) 1 := by
  rw [hy.le_iff ⟨_, _, _, _, rfl⟩, signedUnits_of_nonneg hy hnonneg, signedUnits_finite] at hle
  have hdiff : (finite false m e c).signedUnits - y.signedUnits =
      (m * Nat.pow 2 e - y.units : Nat) := by
    rw [signedUnits_of_nonneg hy hnonneg, signedUnits_finite]
    omega
  have hsub : finite false m e c - y = subFinite (finite false m e c) y := by
    obtain ⟨s, m', e', c', rfl⟩ := hy
    rfl
  rw [hsub, subFinite, hdiff]
  generalize m * Nat.pow 2 e - y.units = d
  split
  next hzero =>
    obtain rfl : d = 0 := by omega
    rw [round_zero, isNegative, Bool.and_false, Bool.false_and]
  next => rw [decide_eq_false (by omega), Int.natAbs_natCast]

/-- The range of a quotient. Both magnitudes count units, so the quotient has lost the unit and it
is put back. -/
theorem IsBetween.div (hx : x.IsBetween a b) (hy : y.IsBetween c d) (hlow : k + d = a + 1074)
    (hhigh : l + c = b + 1074) (hl : l < 2098) : (x / y).IsBetween k l := by
  obtain ⟨m, e, hm, rfl, hxlow, hxhigh⟩ := hx
  obtain ⟨m', e', hm', rfl, hylow, hyhigh⟩ := hy
  have hpos := Nat.lt_of_lt_of_le (pow_two_pos c) hylow
  rw [finite_div_finite hpos]
  apply isBetween_round hpos _ _ hl
  · calc Nat.pow 2 k * (m' * Nat.pow 2 e') ≤ Nat.pow 2 k * Nat.pow 2 d :=
          Nat.mul_le_mul_left _ hyhigh
      _ = Nat.pow 2 a * unitsPerOne := by rw [← pow_two_add, hlow, pow_add_units]
      _ ≤ m * Nat.pow 2 e * unitsPerOne := Nat.mul_le_mul_right _ hxlow
  · calc m * Nat.pow 2 e * unitsPerOne ≤ Nat.pow 2 b * unitsPerOne :=
          Nat.mul_le_mul_right _ hxhigh
      _ = Nat.pow 2 l * Nat.pow 2 c := by rw [← pow_two_add, hhigh, pow_add_units]
      _ ≤ Nat.pow 2 l * (m' * Nat.pow 2 e') := Nat.mul_le_mul_left _ hylow

theorem zero_div (hy : y.IsBetween c d) : 0 / y = 0 := by
  obtain ⟨m, e, hm, rfl, hlow, -⟩ := hy
  have hpos := Nat.lt_of_lt_of_le (pow_two_pos c) hlow
  rw [zero_eq, zero, finite_div_finite hpos, Nat.zero_mul, round_zero]
  rfl

end Binary64

end IoWatch
