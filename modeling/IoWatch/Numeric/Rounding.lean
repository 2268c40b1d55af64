/-!
# Rounding a quotient to the nearest integer

Every number this library prints or computes is an exact quotient of natural numbers that is
rounded once. The rule is the same everywhere: the nearest integer, and of two equally near
integers the even one.

## Main definitions

* `roundHalfEven num den`: the integer nearest to `num / den`, a half going to the even neighbour

## Main results

* `le_roundHalfEven`, `roundHalfEven_le`: the result is within half of the quotient
* `roundHalfEven_mono`: the order of quotients is kept
* `roundHalfEven_le_of_le`, `le_roundHalfEven_of_le`: so whole bounds stay bounds
* `le_roundHalfEven_iff_of_even`: where an even number is reached
-/

namespace IoWatch

/-- The natural number nearest to `num / den`; a half goes to the even neighbour. -/
def roundHalfEven (num den : Nat) : Nat :=
  let q := num / den
  let r := num % den
  if 2 * r < den then q
  else if den < 2 * r then q + 1
  else q + q % 2

/-- The result is at most a half below the quotient. -/
theorem le_roundHalfEven {den : Nat} (h : 0 < den) (num : Nat) :
    2 * num ≤ 2 * (den * roundHalfEven num den) + den := by
  have whole := Nat.div_add_mod num den
  have small := Nat.mod_lt num h
  simp only [roundHalfEven]
  split
  · omega
  split
  · rw [Nat.mul_add]
    omega
  · have := Nat.mul_le_mul_left den (Nat.le_add_right (num / den) (num / den % 2))
    omega

/-- The result is at most a half above the quotient. -/
theorem roundHalfEven_le {den : Nat} (h : 0 < den) (num : Nat) :
    2 * (den * roundHalfEven num den) ≤ 2 * num + den := by
  have whole := Nat.div_add_mod num den
  have small := Nat.mod_lt num h
  simp only [roundHalfEven]
  split
  · omega
  split
  · rw [Nat.mul_add]
    omega
  · rcases Nat.mod_two_eq_zero_or_one (num / den) with even | odd
    · rw [even, Nat.add_zero]
      omega
    · rw [odd, Nat.mul_add]
      omega

/-- A whole quotient is left alone. -/
@[simp] theorem roundHalfEven_one (n : Nat) : roundHalfEven n 1 = n := by
  simp [roundHalfEven, Nat.mod_one]

/-- A quotient without a remainder is left alone, too. -/
theorem roundHalfEven_mul {den : Nat} (h : 0 < den) (n : Nat) :
    roundHalfEven (n * den) den = n := by
  simp [roundHalfEven, Nat.mul_div_cancel n h, h]

/-- The result is one of the two whole numbers around the quotient. -/
theorem roundHalfEven_between (num den : Nat) :
    num / den ≤ roundHalfEven num den ∧ roundHalfEven num den ≤ num / den + 1 := by
  simp only [roundHalfEven]
  split
  · omega
  split <;> omega

/-- The larger of two quotients does not have the smaller whole part. -/
theorem div_le_div_of_mul_le_mul {num den num' den' : Nat} (hden : 0 < den) (hden' : 0 < den')
    (h : num * den' ≤ num' * den) : num / den ≤ num' / den' := by
  rw [Nat.le_div_iff_mul_le hden']
  apply Nat.le_of_mul_le_mul_right _ hden
  calc num / den * den' * den = num / den * den * den' := Nat.mul_right_comm _ _ _
    _ ≤ num * den' := Nat.mul_le_mul_right den' (Nat.div_mul_le_self num den)
    _ ≤ num' * den := h

/-- The larger of two quotients is not rounded below the smaller one. With the same whole part it is
the remainders that compare. -/
theorem roundHalfEven_mono {num den num' den' : Nat} (hden : 0 < den) (hden' : 0 < den')
    (h : num * den' ≤ num' * den) : roundHalfEven num den ≤ roundHalfEven num' den' := by
  have hfloor := div_le_div_of_mul_le_mul hden hden' h
  have hbelow := (roundHalfEven_between num den).2
  have habove := (roundHalfEven_between num' den').1
  rcases Nat.lt_or_eq_of_le hfloor with hlt | heq
  · omega
  have hrest : 2 * (num % den) * den' ≤ 2 * (num' % den') * den := by
    have hwhole : num * den' = num / den * den * den' + num % den * den' := by
      rw [← Nat.add_mul, Nat.mul_comm (num / den), Nat.div_add_mod]
    have hwhole' : num' * den = num / den * den * den' + num' % den' * den := by
      rw [Nat.mul_right_comm, heq, ← Nat.add_mul, Nat.mul_comm (num' / den'), Nat.div_add_mod]
    rw [Nat.mul_assoc, Nat.mul_assoc]
    omega
  simp only [roundHalfEven, heq] at habove ⊢
  split
  · exact habove
  rename_i hhalf
  have hhalf' : den' ≤ 2 * (num' % den') := by
    apply Nat.le_of_mul_le_mul_right _ hden
    rw [Nat.mul_comm den']
    exact Nat.le_trans (Nat.mul_le_mul_right den' (Nat.le_of_not_lt hhalf)) hrest
  rw [if_neg (Nat.not_lt.mpr hhalf')]
  split
  · rename_i hmore
    have hmore' : den' < 2 * (num' % den') := by
      apply Nat.lt_of_mul_lt_mul_right (a := den)
      rw [Nat.mul_comm den']
      exact Nat.lt_of_lt_of_le (Nat.mul_lt_mul_of_pos_right hmore hden') hrest
    exact Nat.le_of_eq (if_pos hmore').symm
  · split <;> omega

/-- A whole number that is not below a quotient is not below what it is rounded to. -/
theorem roundHalfEven_le_of_le {num den n : Nat} (hden : 0 < den) (h : num ≤ n * den) :
    roundHalfEven num den ≤ n := by
  rw [← roundHalfEven_mul hden n]
  exact roundHalfEven_mono hden hden (Nat.mul_le_mul_right den h)

/-- A whole number that is not above a quotient is not above what it is rounded to. -/
theorem le_roundHalfEven_of_le {num den n : Nat} (hden : 0 < den) (h : n * den ≤ num) :
    n ≤ roundHalfEven num den := by
  rw [← roundHalfEven_mul hden n]
  exact roundHalfEven_mono hden hden (Nat.mul_le_mul_right den h)

/-- A common factor does not count. -/
theorem roundHalfEven_mul_mul {den k : Nat} (hden : 0 < den) (hk : 0 < k) (num : Nat) :
    roundHalfEven (num * k) (den * k) = roundHalfEven num den := by
  have hcross : num * k * den = num * (den * k) := by rw [Nat.mul_assoc, Nat.mul_comm k]
  apply Nat.le_antisymm
  · exact roundHalfEven_mono (Nat.mul_pos hden hk) hden (Nat.le_of_eq hcross)
  · exact roundHalfEven_mono hden (Nat.mul_pos hden hk) (Nat.le_of_eq hcross.symm)

/-- An even number is reached by every quotient that is at most a half below it. -/
theorem le_roundHalfEven_iff_of_even {num den n : Nat} (hden : 0 < den) (heven : n % 2 = 0) :
    n ≤ roundHalfEven num den ↔ 2 * (den * n) ≤ 2 * num + den := by
  constructor
  · intro h
    have hbelow := roundHalfEven_le hden num
    have := Nat.mul_le_mul_left den h
    omega
  · intro h
    have hwhole := Nat.div_add_mod num den
    have hsmall := Nat.mod_lt num hden
    have hfar : ∀ k, num / den + k ≤ n → den * k ≤ num % den + den / 2 := by
      intro k hk
      have := Nat.mul_le_mul_left den hk
      rw [Nat.mul_add] at this
      omega
    have hone : n ≤ num / den + 1 := by
      apply Nat.le_of_not_lt
      intro hlt
      have := hfar 2 hlt
      omega
    simp only [roundHalfEven]
    split
    · apply Nat.le_of_not_lt
      intro hlt
      have := hfar 1 hlt
      omega
    · split
      · exact hone
      · omega

end IoWatch
