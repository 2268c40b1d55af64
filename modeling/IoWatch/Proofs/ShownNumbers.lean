import IoWatch.Proofs.ExactNumbers
import IoWatch.Proofs.NumberText
import Mathlib.Algebra.Order.Field.Rat
import Mathlib.Tactic.Linarith
import Mathlib.Tactic.NormNum
import Mathlib.Tactic.Positivity

/-!
# Numbers in hundredths of a unit

An amount is shown in hundredths of `1024 ^ k`. Dividing by such a unit is exact for what fills it,
so only one rounding is left, to the nearest hundredth. That is at most half a hundredth away, keeps
the order, and keeps the whole numbers of a unit apart. An integer of more than 53 bits has been
rounded before, when it was read.

## Main definitions

* `Binary64.value`: the rational value of a finite number
* `Binary64.hundredths`, `Binary64.shown`: what is shown of a number in units of `1024 ^ k`
* `Binary64.IsPower`: a number that is `1024 ^ k`
* `Binary64.Counts`: a number whose text shows another one in such units
* `IsUnitOf`: the largest of some units that an amount fills

## Main results

* `Binary64.abs_shown_sub_value_le`: at most half a hundredth is lost
* `Binary64.shown_mono`: the order is kept in one unit
* `Binary64.le_shown`, `Binary64.shown_le`: whole numbers of the unit are kept apart
* `Binary64.le_shown_iff`: what is rounded up to a whole number of the unit
* `Binary64.value_ofInt_of_lt`, `Binary64.abs_value_ofInt_sub_le`: the values of integers
* `IsUnitOf.shown_mul_le`: the order is kept from unit to unit
* `Binary64.Counts.div_unit`, `Binary64.Counts.placesText_fixed`,
  `Binary64.Counts.readAmount?_fixed`: an amount that is divided by its unit has two places in its
  text and is read back from it
-/

namespace IoWatch

namespace Binary64

/-- The value of a finite number. -/
def value (x : Binary64) : ℚ := x.signedUnits / unitsPerOne

/-- A magnitude in hundredths of `1024 ^ k`, rounded. -/
def hundredths (units k : ℕ) : ℕ := roundHalfEven (units * 100) (1024 ^ k * unitsPerOne)

/-- What is shown of a number in units of `1024 ^ k`. -/
def shown (x : Binary64) (k : ℕ) : ℚ := signed x.isNegative (hundredths x.units k) / 100

variable {x y : Binary64} {k : ℕ}

theorem unit_pos (k : ℕ) : 0 < 1024 ^ k * unitsPerOne :=
  Nat.mul_pos (Nat.pow_pos (by decide)) unitsPerOne_pos

/-- The units of one as a rational number. -/
theorem unitsPerOne_pos_rat : (0 : ℚ) < unitsPerOne := by exact_mod_cast unitsPerOne_pos

theorem value_eq (x : Binary64) : x.value = signed x.isNegative x.units / unitsPerOne := rfl

/-! ## The last place -/

/-- The magnitude that is shown is at most half a hundredth of the unit away. -/
theorem abs_hundredths_sub_units_le (units k : ℕ) :
    |(hundredths units k : ℚ) / 100 * 1024 ^ k - units / unitsPerOne| ≤ 1024 ^ k / 200 := by
  have hpos := unitsPerOne_pos_rat
  have hlow : 2 * (units * 100) ≤ 2 * (1024 ^ k * unitsPerOne * hundredths units k) +
      1024 ^ k * unitsPerOne := le_roundHalfEven (unit_pos k) _
  have hhigh : 2 * (1024 ^ k * unitsPerOne * hundredths units k) ≤ 2 * (units * 100) +
      1024 ^ k * unitsPerOne := roundHalfEven_le (unit_pos k) _
  rw [← Nat.cast_le (α := ℚ)] at hlow hhigh
  push_cast at hlow hhigh
  rw [abs_sub_le_iff]
  constructor
  · rw [sub_le_iff_le_add, div_add_div _ _ (by norm_num) hpos.ne', le_div_iff₀ (by positivity)]
    linarith
  · rw [sub_le_iff_le_add, div_le_iff₀ hpos]
    linarith

theorem cast_signed_false (n : ℕ) : (signed false n : ℚ) = n := Int.cast_natCast n

theorem cast_signed_true (n : ℕ) : (signed true n : ℚ) = -n := by
  rw [signed, if_pos rfl, Int.cast_neg, Int.cast_natCast]

/-- At most half a hundredth of the unit is lost. -/
theorem abs_shown_sub_value_le (x : Binary64) (k : ℕ) :
    |x.shown k * 1024 ^ k - x.value| ≤ 1024 ^ k / 200 := by
  have h := abs_hundredths_sub_units_le x.units k
  rw [shown, value_eq]
  cases x.isNegative with
  | false => rwa [cast_signed_false, cast_signed_false]
  | true =>
    rw [cast_signed_true, cast_signed_true, neg_div, neg_div, neg_mul, neg_sub_neg, abs_sub_comm]
    exact h

/-- Half a hundredth does not lead from one whole number of hundredths to another. -/
theorem le_of_le_add_half {i j : ℤ} (h : (i : ℚ) ≤ j + 1 / 2) : i ≤ j := by
  have hlt : (i : ℚ) < (j + 1 : ℤ) := by
    push_cast
    linarith
  exact Int.lt_add_one_iff.mp (Int.cast_lt.mp hlt)

/-- A whole number of the unit that is not above a number is not above what is shown of it. -/
theorem le_shown {n : ℕ} (h : (n : ℚ) * 1024 ^ k ≤ x.value) : (n : ℚ) ≤ x.shown k := by
  have hunit : (0 : ℚ) < 1024 ^ k := by positivity
  have hnear := (abs_sub_le_iff.mp (abs_shown_sub_value_le x k)).2
  have hclose : (n - 1 / 200) * (1024 : ℚ) ^ k ≤ x.shown k * 1024 ^ k := by linarith
  have hclose' := le_of_mul_le_mul_right hclose hunit
  rw [shown, le_div_iff₀ (by norm_num)] at hclose' ⊢
  have hle : (n * 100 : ℤ) ≤ signed x.isNegative (hundredths x.units k) := by
    apply le_of_le_add_half
    push_cast
    linarith
  exact_mod_cast hle

/-- A whole number of the unit that is not below a number is not below what is shown of it. -/
theorem shown_le {n : ℕ} (h : x.value ≤ (n : ℚ) * 1024 ^ k) : x.shown k ≤ n := by
  have hunit : (0 : ℚ) < 1024 ^ k := by positivity
  have hnear := (abs_sub_le_iff.mp (abs_shown_sub_value_le x k)).1
  have hclose : x.shown k * 1024 ^ k ≤ (n + 1 / 200) * (1024 : ℚ) ^ k := by linarith
  have hclose' := le_of_mul_le_mul_right hclose hunit
  rw [shown, div_le_iff₀ (by norm_num)] at hclose' ⊢
  have hle : signed x.isNegative (hundredths x.units k) ≤ (n * 100 : ℤ) := by
    apply le_of_le_add_half
    push_cast
    linarith
  exact_mod_cast hle

/-- A whole number of the unit is reached from half a hundredth below it on. It is an even number of
hundredths, so a half is rounded up to it. -/
theorem le_shown_iff {n : ℕ} (hn : 0 < n) :
    (n : ℚ) ≤ x.shown k ↔ ((n : ℚ) - 1 / 200) * 1024 ^ k ≤ x.value := by
  have hpos := unitsPerOne_pos_rat
  have hunit : (0 : ℚ) < 1024 ^ k := by positivity
  have hone : (1 : ℚ) ≤ n := by exact_mod_cast hn
  rw [shown, value_eq, le_div_iff₀ hpos, le_div_iff₀ (by norm_num)]
  cases x.isNegative with
  | true =>
    have hleft : (0 : ℚ) < n * 100 := by positivity
    have hright : 0 < ((n : ℚ) - 1 / 200) * 1024 ^ k * unitsPerOne :=
      mul_pos (mul_pos (by linarith) hunit) hpos
    have hshown : -(hundredths x.units k : ℚ) ≤ 0 := neg_nonpos.mpr (Nat.cast_nonneg _)
    have hvalue : -(x.units : ℚ) ≤ 0 := neg_nonpos.mpr (Nat.cast_nonneg _)
    rw [cast_signed_true, cast_signed_true]
    constructor <;> intro h <;> linarith
  | false =>
    have hreach : n * 100 ≤ hundredths x.units k ↔
        2 * (1024 ^ k * unitsPerOne * (n * 100)) ≤ 2 * (x.units * 100) + 1024 ^ k * unitsPerOne :=
      le_roundHalfEven_iff_of_even (unit_pos k) (by omega)
    rw [← Nat.cast_le (α := ℚ), ← Nat.cast_le (α := ℚ)] at hreach
    push_cast at hreach
    rw [cast_signed_false, cast_signed_false, hreach]
    constructor <;> intro h <;> linarith

/-! ## Order -/

theorem monotone_hundredths (k : ℕ) : Monotone (hundredths · k) := by
  intro m n h
  exact roundHalfEven_mono (unit_pos k) (unit_pos k)
    (Nat.mul_le_mul_right _ (Nat.mul_le_mul_right 100 h))

theorem hundredths_zero (k : ℕ) : hundredths 0 k = 0 := by
  have h := roundHalfEven_mul (unit_pos k) 0
  rwa [Nat.zero_mul, ← Nat.zero_mul 100] at h

/-- What keeps the order of magnitudes, and zero, keeps the order of numbers. -/
theorem signed_le_signed {f : ℕ → ℕ} (hf : Monotone f) (hzero : f 0 = 0) {s t : Bool} {m n : ℕ}
    (h : signed s m ≤ signed t n) : signed s (f m) ≤ signed t (f n) := by
  cases s <;> cases t <;> simp only [signed, if_true, Bool.false_eq_true, if_false] at h ⊢
  case false.false => exact_mod_cast hf (by omega)
  case true.true =>
    have := hf (show n ≤ m by omega)
    omega
  case true.false => omega
  case false.true =>
    obtain ⟨rfl, rfl⟩ : m = 0 ∧ n = 0 := by omega
    omega

/-- Finite numbers are ordered like their values. -/
theorem IsFinite.le_iff_value_le (hx : x.IsFinite) (hy : y.IsFinite) :
    x ≤ y ↔ x.value ≤ y.value := by
  rw [hx.le_iff hy, value, value, div_le_div_iff_of_pos_right unitsPerOne_pos_rat, Int.cast_le]

/-- The order is kept in one unit. -/
theorem shown_mono (h : x.value ≤ y.value) (k : ℕ) : x.shown k ≤ y.shown k := by
  rw [value_eq, value_eq, div_le_div_iff_of_pos_right unitsPerOne_pos_rat, Int.cast_le] at h
  rw [shown, shown, div_le_div_iff_of_pos_right (by norm_num), Int.cast_le]
  exact signed_le_signed (monotone_hundredths k) (hundredths_zero k) h

/-! ## Texts -/

/-- A number is `1024 ^ k`. -/
def IsPower (y : Binary64) (k : ℕ) : Prop := y.IsBetween (10 * k + 1074) (10 * k + 1074)

theorem pow_two_mul_ten (k : ℕ) : Nat.pow 2 (10 * k) = 1024 ^ k := pow_mul 2 10 k

theorem isPower_ofInt {i : ℤ} (hi : i = 1024 ^ k) (hk : k ≤ 4) : (ofInt i).IsPower k := by
  have hpow : (Nat.pow 2 (10 * k) : ℤ) = i := by
    rw [pow_two_mul_ten, hi]
    push_cast
    rfl
  exact isBetween_ofInt hpow.le hpow.ge (by omega)

/-- A power is compared with a number like their values: finite numbers are ordered by their
units. -/
theorem IsPower.le_iff (hy : y.IsPower k) (hx : x.IsFinite) : y ≤ x ↔ 1024 ^ k ≤ x.value := by
  have hfinite := hy.isAmount.isFinite
  obtain ⟨m, e, c, rfl, hlow, hhigh⟩ := hy
  have hunits : m * Nat.pow 2 e = 1024 ^ k * unitsPerOne := by
    rw [← pow_two_mul_ten, ← pow_add_units]
    exact Nat.le_antisymm hhigh hlow
  rw [hfinite.le_iff hx, signedUnits_finite, hunits, value, le_div_iff₀ unitsPerOne_pos_rat,
    ← Int.cast_le (R := ℚ), Int.cast_natCast, Nat.cast_mul, Nat.cast_pow, Nat.cast_ofNat]

/-- What fills a unit has the magnitude of the unit. -/
theorem le_units (h : 1024 ^ k ≤ x.value) : 1024 ^ k * unitsPerOne ≤ x.units := by
  have hpos := unitsPerOne_pos_rat
  have hsigned : (signed x.isNegative x.units : ℚ) ≤ x.units := by
    cases x.isNegative with
    | false => rw [cast_signed_false]
    | true =>
      rw [cast_signed_true]
      exact neg_le_self (Nat.cast_nonneg _)
  rw [value_eq, le_div_iff₀ hpos] at h
  exact_mod_cast h.trans hsigned

/-- With two places, a number counts the hundredths of another one in units of `1024 ^ k`. -/
structure Counts (y x : Binary64) (k : ℕ) : Prop where
  isFinite : y.IsFinite
  isNegative : y.isNegative = x.isNegative
  scaled : y.scaled 2 = hundredths x.units k

namespace Counts

theorem self (hx : x.IsFinite) : Counts x x 0 := by
  refine ⟨hx, rfl, ?_⟩
  rw [hundredths, pow_zero, Nat.one_mul]
  rfl

/-- The quotient by a unit counts the hundredths of what fills the unit, which is a factor of both
sides. -/
theorem div_unit (hx : x.IsFinite) (hy : y.IsPower k) (h : 1024 ^ k ≤ x.value) :
    Counts (x / y) x k := by
  obtain ⟨s, m, e, c, rfl⟩ := hx
  have hle := le_units h
  rw [← pow_two_mul_ten] at hle
  obtain ⟨m', e', c', hdiv, hunits⟩ := exists_div_eq s c hy hle
  rw [hdiv]
  refine ⟨⟨s, m', e', c', rfl⟩, rfl, ?_⟩
  have hmul := roundHalfEven_mul_mul unitsPerOne_pos (pow_two_pos (10 * k))
    (m' * Nat.pow 2 e' * 100)
  rw [Nat.mul_right_comm, hunits, Nat.mul_comm unitsPerOne, pow_two_mul_ten] at hmul
  exact hmul.symm

/-- The text of such a number has two places, and it is what is shown of the other one. -/
theorem placesText_fixed (h : Counts y x k) : PlacesText 2 (y.fixed 2) (x.shown k) := by
  have hplaces := IoWatch.placesText_fixed h.isFinite (by decide : 0 < 2)
  have hshown : (signed x.isNegative (hundredths x.units k) : ℚ) / 10 ^ 2 = x.shown k := by
    rw [shown]
    norm_num
  rwa [h.isNegative, h.scaled, hshown] at hplaces

/-- It is read back as that. -/
theorem readAmount?_fixed (h : Counts y x k) {names : List (List Char)} {name : List Char} {i : ℕ}
    (hname : names.idxOf? name = some i) :
    readAmount? names (y.fixed 2 ++ ' ' :: name) = some (x.shown k, i) :=
  readAmount?_append (blank_not_mem_fixed h.isFinite 2) h.placesText_fixed.number?_eq hname

end Counts

/-! ## Integers -/

section Integer

variable {n m : ℕ}

theorem value_ofInt (hn : n < Nat.pow 2 64) :
    (ofInt n).value = (rounded (n * unitsPerOne) 1 : ℚ) / unitsPerOne := by
  obtain ⟨m, e, c, hofInt, hunits⟩ := exists_ofInt_eq hn (by decide)
  rw [hofInt, value, signedUnits_finite, hunits, Int.cast_natCast]

/-- The order of integers is kept. -/
theorem value_ofInt_mono (hm : m < Nat.pow 2 64) (h : n ≤ m) :
    (ofInt n).value ≤ (ofInt m).value := by
  rw [value_ofInt (lt_of_le_of_lt h hm), value_ofInt hm,
    div_le_div_iff_of_pos_right unitsPerOne_pos_rat, Nat.cast_le]
  exact rounded_mono Nat.one_pos Nat.one_pos
    (Nat.mul_le_mul_right 1 (Nat.mul_le_mul_right unitsPerOne h))

/-- Up to 53 bits nothing is rounded. -/
theorem value_ofInt_of_lt (hn : n < Nat.pow 2 53) : (ofInt n).value = n := by
  rw [value_ofInt (lt_trans hn (by decide)), rounded_integer_of_lt hn, Nat.cast_mul,
    mul_div_cancel_right₀ _ unitsPerOne_pos_rat.ne']

/-- Above 53 bits at most half of the last place is lost. -/
theorem abs_value_ofInt_sub_le (hn : n < Nat.pow 2 (k + 53)) (hk : k ≤ 11) :
    |(ofInt n).value - n| ≤ 2 ^ k / 2 := by
  obtain ⟨hlow, hhigh⟩ := rounded_integer_within hn
  have hpos := unitsPerOne_pos_rat
  rw [← Nat.cast_le (α := ℚ), Nat.pow_eq] at hlow hhigh
  push_cast at hlow hhigh
  rw [value_ofInt (lt_of_lt_of_le hn (pow_two_le_pow_two (by omega))), abs_sub_le_iff]
  constructor
  · rw [sub_le_iff_le_add, div_le_iff₀ hpos]
    linarith
  · rw [sub_le_iff_le_add, ← sub_le_iff_le_add', le_div_iff₀ hpos]
    linarith

end Integer

end Binary64

/-! ## Units -/

/-- The unit of an amount: the largest one that it fills, or the first one if it fills none. -/
structure IsUnitOf (top : ℕ) (amount : ℚ) (k : ℕ) : Prop where
  le_top : k ≤ top
  fills : k = 0 ∨ 1024 ^ k ≤ amount
  next : k = top ∨ amount < 1024 ^ (k + 1)

namespace IsUnitOf

open Binary64

variable {top k l : ℕ} {a b : ℚ} {x y : Binary64}

/-- An amount fills the units up to its own. -/
theorem le_iff (h : IsUnitOf top a k) (hl : l ≠ 0) (htop : l ≤ top) : l ≤ k ↔ 1024 ^ l ≤ a := by
  constructor
  · intro hle
    have hpow : (1024 : ℚ) ^ l ≤ 1024 ^ k := pow_le_pow_right₀ (by norm_num) hle
    exact hpow.trans (h.fills.resolve_left (by omega))
  · intro hfills
    by_contra hlt
    rw [not_le] at hlt
    have hnext := h.next.resolve_left (by omega)
    have hpow : (1024 : ℚ) ^ (k + 1) ≤ 1024 ^ l := pow_le_pow_right₀ (by norm_num) hlt
    linarith

/-- The larger of two amounts does not have the smaller unit: the unit of the smaller one is filled
by the larger one, too. -/
theorem le_of_le (ha : IsUnitOf top a k) (hb : IsUnitOf top b l) (h : a ≤ b) : k ≤ l := by
  by_cases hk : k = 0
  · omega
  · exact (hb.le_iff hk ha.le_top).mpr ((ha.fills.resolve_left hk).trans h)

/-- Below the top unit, at most 1024 is shown. -/
theorem shown_le (h : IsUnitOf top x.value k) (hk : k ≠ top) : x.shown k ≤ 1024 := by
  have hnext := h.next.resolve_left hk
  rw [pow_succ, mul_comm] at hnext
  exact_mod_cast Binary64.shown_le (n := 1024) (by exact_mod_cast hnext.le)

/-- Above the first unit, at least one is shown. -/
theorem le_shown (h : IsUnitOf top x.value k) (hk : k ≠ 0) : 1 ≤ x.shown k := by
  have hfills := h.fills.resolve_left hk
  exact_mod_cast Binary64.le_shown (n := 1) (by rwa [Nat.cast_one, one_mul])

/-- The order is kept from unit to unit, where a whole unit stands between the two. -/
theorem shown_mul_le (hx : IsUnitOf top x.value k) (hy : IsUnitOf top y.value l)
    (h : x.value ≤ y.value) : x.shown k * 1024 ^ k ≤ y.shown l * 1024 ^ l := by
  rcases Nat.lt_or_eq_of_le (hx.le_of_le hy h) with hlt | rfl
  · have hle := hy.le_top
    calc x.shown k * 1024 ^ k ≤ 1024 * 1024 ^ k := by
          have := hx.shown_le (by omega)
          gcongr
      _ = 1024 ^ (k + 1) := by ring
      _ ≤ 1024 ^ l := pow_le_pow_right₀ (by norm_num) hlt
      _ = 1 * 1024 ^ l := (one_mul _).symm
      _ ≤ y.shown l * 1024 ^ l := by
          have := hy.le_shown (by omega)
          gcongr
  · have := shown_mono h k
    gcongr

end IsUnitOf

end IoWatch
