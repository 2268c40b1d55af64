import IoWatch.Dashboard.Graph
import IoWatch.Proofs.ExactNumbers
import IoWatch.Proofs.Maxima

/-!
# Rows of a graph

The value at the top of a graph is the greatest of one and all entries. The row of a value is its
distance from the top, multiplied by the rows below the first one, divided by the value at the top,
and cut to an integer. The first two steps and the quotient are rounded. Rounding keeps the order,
so a larger value never stands lower, and the value at the top stands in the first row. All that is
rounded up is less than half a row, so every value stands in one of the rows, as long as the product
is finite.

## Main definitions

* `Graph.rowOf`: the row of a distance, computed with magnitudes
* `Graph.IsInside`: a value between zero and the top

## Main results

* `Binary64.truncate_div`: the integer part of a quotient
* `Graph.isGreatest_ceiling`, `Graph.isInside_ceiling`: the value at the top
* `Graph.rowOf_mono`, `Graph.rowOf_zero`, `Graph.rowOf_le`: the rows of distances
* `Graph.IsInside.dotRow_eq`: the row of a value is that of its distance
* `Graph.IsInside.dotRow_le_dotRow`: the larger of two values does not stand lower
* `Graph.IsInside.dotRow_eq_zero`: the value at the top stands in the first row
* `Graph.IsInside.dotRow_lt`: every value stands in one of the rows
-/

namespace IoWatch

/-! ## Integer parts -/

namespace Binary64

variable {m e : Nat}

theorem truncate_finite (c : Canonical m e) (bound : Nat) :
    (finite false m e c).truncate bound = min bound (m * Nat.pow 2 e / unitsPerOne) :=
  rfl

/-- The integer part of a quotient by what is not below one. It is as finite as the numerator. -/
theorem truncate_div {m' e' : Nat} (c' : Canonical m' e') (c : Canonical m e)
    (hone : unitsPerOne ≤ m * Nat.pow 2 e) (bound : Nat) :
    (finite false m' e' c' / finite false m e c).truncate bound =
      min bound (rounded (m' * Nat.pow 2 e' * unitsPerOne) (m * Nat.pow 2 e) / unitsPerOne) := by
  have hpos : 0 < m * Nat.pow 2 e := Nat.lt_of_lt_of_le unitsPerOne_pos hone
  have hlt := c'.rounded_lt hpos (Nat.mul_le_mul_left (m' * Nat.pow 2 e') hone)
  obtain ⟨m'', e'', c'', hround, hunits⟩ := exists_round_eq false hpos hlt
  rw [finite_div_finite hpos, bne_self_eq_false', hround, truncate_finite, hunits]

theorem truncate_infinity_div (c : Canonical m e) (bound : Nat) :
    (infinity false / finite false m e c).truncate bound = bound :=
  rfl

end Binary64

namespace Graph

open Binary64

/-! ## The top -/

variable {history : List Binary64} {top v w : Binary64}

/-- The value at the top of a graph is the greatest of one and all entries. -/
theorem isGreatest_ceiling (h : ∀ v ∈ history, v.IsFinite) :
    IsGreatest {v | v ∈ 1 :: history} (ceiling history) :=
  isGreatest_foldl_max isFinite_one.isGreatest (List.forall_mem_singleton.mpr isFinite_one) h

theorem isFinite_ceiling (h : ∀ v ∈ history, v.IsFinite) : (ceiling history).IsFinite := by
  rcases List.mem_cons.mp (isGreatest_ceiling h).1 with heq | hmem
  · rw [heq]
    exact isFinite_one
  · exact h _ hmem

theorem one_le_ceiling (h : ∀ v ∈ history, v.IsFinite) : 1 ≤ ceiling history :=
  (isGreatest_ceiling h).2 List.mem_cons_self

/-- A value is not negative and not above the top, and the top is not below one. -/
structure IsInside (top v : Binary64) : Prop where
  isFinite_top : top.IsFinite
  one_le_top : 1 ≤ top
  isFinite : v.IsFinite
  nonneg : 0 ≤ v
  le_top : v ≤ top

theorem isInside_ceiling (h : ∀ v ∈ history, v.IsFinite ∧ 0 ≤ v) (hv : v ∈ history) :
    IsInside (ceiling history) v :=
  have hfinite : ∀ w ∈ history, w.IsFinite := fun w hw => (h w hw).1
  { isFinite_top := isFinite_ceiling hfinite
    one_le_top := one_le_ceiling hfinite
    isFinite := (h v hv).1
    nonneg := (h v hv).2
    le_top := (isGreatest_ceiling hfinite).2 (List.mem_cons_of_mem _ hv) }

/-! ## Distances -/

/-- The row of a distance below the top. If the product is infinite, so is the quotient, and the
largest word stands for the row. -/
def rowOf (below top distance : Nat) : Nat :=
  let product := rounded (rounded distance 1 * (below * unitsPerOne)) unitsPerOne
  if product < leastTooLarge then
    min (Nat.pow 2 64 - 1) (rounded (product * unitsPerOne) top / unitsPerOne)
  else Nat.pow 2 64 - 1

variable {below units distance distance' : Nat}

theorem rowOf_zero (below units : Nat) : rowOf below units 0 = 0 := by
  rw [rowOf, rounded_zero, Nat.zero_mul, rounded_zero, if_pos leastTooLarge_pos, Nat.zero_mul,
    rounded_zero, Nat.zero_div, Nat.min_zero]

/-- The products of two distances are ordered like the distances. -/
theorem product_mono (below : Nat) (h : distance ≤ distance') :
    rounded (rounded distance 1 * (below * unitsPerOne)) unitsPerOne ≤
      rounded (rounded distance' 1 * (below * unitsPerOne)) unitsPerOne := by
  apply rounded_mono unitsPerOne_pos unitsPerOne_pos
  apply Nat.mul_le_mul_right
  apply Nat.mul_le_mul_right
  exact rounded_mono Nat.one_pos Nat.one_pos (Nat.mul_le_mul_right 1 h)

/-- The larger of two distances does not have the upper row. -/
theorem rowOf_mono (hunits : 0 < units) (h : distance ≤ distance') :
    rowOf below units distance ≤ rowOf below units distance' := by
  have hproduct := product_mono below h
  rw [rowOf, rowOf]
  split
  next hfinite =>
    split
    next =>
      apply Nat.le_min.mpr
      refine ⟨Nat.min_le_left _ _, Nat.le_trans (Nat.min_le_right _ _) ?_⟩
      apply Nat.div_le_div_right
      exact rounded_mono hunits hunits
        (Nat.mul_le_mul_right _ (Nat.mul_le_mul_right _ hproduct))
    next => exact Nat.min_le_left _ _
  next hinfinite =>
    apply Nat.le_of_eq
    rw [if_neg fun hfinite => hinfinite (Nat.lt_of_le_of_lt hproduct hfinite)]

/-- Rounding adds at most half a row to the product of a distance. The product has 53 bits at its
scale, and the rows take no more than 52 of them. -/
theorem two_mul_rounded_le (hunits : 0 < units) (hbelow : below ≤ Nat.pow 2 52) :
    2 * rounded (units * (below * unitsPerOne)) unitsPerOne ≤ (2 * below + 1) * units := by
  have hscale : Nat.pow 2 (scaleOf (units * (below * unitsPerOne)) unitsPerOne) ≤ units := by
    by_cases hzero : scaleOf (units * (below * unitsPerOne)) unitsPerOne = 0
    · rw [hzero]
      exact hunits
    have hle := pow_scaleOf_le hzero
    rw [← Nat.mul_assoc, Nat.mul_div_cancel _ unitsPerOne_pos, pow_two_add, Nat.mul_assoc] at hle
    exact Nat.le_of_mul_le_mul_right
      (Nat.le_trans hle (Nat.mul_le_mul_left _ hbelow)) (pow_two_pos 52)
  rw [rounded, significandOf]
  generalize scaleOf (units * (below * unitsPerOne)) unitsPerOne = scale at hscale
  have hnear := roundHalfEven_le (Nat.mul_pos unitsPerOne_pos (pow_two_pos scale))
    (units * (below * unitsPerOne))
  generalize roundHalfEven (units * (below * unitsPerOne)) (unitsPerOne * Nat.pow 2 scale) = sig
    at hnear
  apply Nat.le_of_mul_le_mul_left _ unitsPerOne_pos
  calc unitsPerOne * (2 * (sig * Nat.pow 2 scale))
      = 2 * (unitsPerOne * Nat.pow 2 scale * sig) := by
        rw [Nat.mul_left_comm, Nat.mul_comm sig, Nat.mul_assoc]
    _ ≤ 2 * (units * (below * unitsPerOne)) + unitsPerOne * Nat.pow 2 scale := hnear
    _ ≤ 2 * (units * (below * unitsPerOne)) + unitsPerOne * units :=
        Nat.add_le_add_left (Nat.mul_le_mul_left _ hscale) _
    _ = unitsPerOne * ((2 * below + 1) * units) := by
        rw [Nat.add_mul, Nat.one_mul, Nat.mul_add, ← Nat.mul_assoc units,
          Nat.mul_comm _ unitsPerOne, Nat.mul_left_comm, Nat.mul_assoc 2, Nat.mul_comm units]

/-- As long as the product of the top is finite, no row is below the last one. Half a row below it
is a number, so the quotient is not rounded beyond it. -/
theorem rowOf_le (hunits : 0 < units) (hbelow : below < Nat.pow 2 52)
    (hle : rounded distance 1 ≤ units)
    (hfinite : rounded (units * (below * unitsPerOne)) unitsPerOne < leastTooLarge) :
    rowOf below units distance ≤ below := by
  have hproduct : rounded (rounded distance 1 * (below * unitsPerOne)) unitsPerOne ≤
      rounded (units * (below * unitsPerOne)) unitsPerOne := by
    apply rounded_mono unitsPerOne_pos unitsPerOne_pos
    exact Nat.mul_le_mul_right _ (Nat.mul_le_mul_right _ hle)
  have htwice := two_mul_rounded_le hunits (Nat.le_of_lt hbelow)
  rw [rowOf, if_pos (Nat.lt_of_le_of_lt hproduct hfinite)]
  generalize rounded (rounded distance 1 * (below * unitsPerOne)) unitsPerOne = product at hproduct
  apply Nat.le_trans (Nat.min_le_right _ _)
  obtain ⟨half, hhalf⟩ := exists_unitsPerOne_eq
  have hnumber : 2 * below + 1 < Nat.pow 2 53 := by
    have : Nat.pow 2 53 = 2 * Nat.pow 2 52 := rfl
    omega
  have hquotient : rounded (product * unitsPerOne) units ≤ (2 * below + 1) * Nat.pow 2 half := by
    rw [← rounded_mul hnumber hunits half]
    apply rounded_mono hunits hunits
    apply Nat.mul_le_mul_right
    calc product * unitsPerOne = 2 * product * Nat.pow 2 half := by
          rw [hhalf, Nat.mul_left_comm, Nat.mul_assoc]
      _ ≤ (2 * below + 1) * units * Nat.pow 2 half := by
          apply Nat.mul_le_mul_right
          omega
      _ = (2 * below + 1) * Nat.pow 2 half * units := Nat.mul_right_comm _ _ _
  calc rounded (product * unitsPerOne) units / unitsPerOne
      ≤ (2 * below + 1) * Nat.pow 2 half / unitsPerOne := Nat.div_le_div_right hquotient
    _ = (2 * below + 1) / 2 := by
        rw [hhalf, Nat.mul_div_mul_right _ _ (pow_two_pos half)]
    _ = below := by omega

/-! ## Values -/

namespace IsInside

variable {rows : Nat}

theorem units_pos (hv : IsInside top v) : 0 < top.units := by
  obtain ⟨m, e, c, rfl, hone⟩ := hv.isFinite_top.exists_eq_of_one_le hv.one_le_top
  exact Nat.lt_of_lt_of_le unitsPerOne_pos hone

/-- The row of a value is that of its distance from the top. -/
theorem dotRow_eq (hv : IsInside top v) (hrows : 0 < rows) (hlt : rows ≤ Nat.pow 2 53) :
    dotRow rows top v = rowOf (rows - 1) top.units (top.units - v.units) := by
  obtain ⟨m, e, c, rfl, hone⟩ := hv.isFinite_top.exists_eq_of_one_le hv.one_le_top
  have hsub := finite_sub c hv.isFinite hv.nonneg hv.le_top
  have hle : m * Nat.pow 2 e - v.units ≤ m * Nat.pow 2 e * 1 := by
    rw [Nat.mul_one]
    exact Nat.sub_le _ _
  rw [units]
  generalize m * Nat.pow 2 e - v.units = distance at hsub hle
  have hfinite := c.rounded_lt Nat.one_pos hle
  obtain ⟨m₁, e₁, c₁, hdistance, hunits₁⟩ := exists_round_eq false Nat.one_pos hfinite
  obtain ⟨m₂, e₂, c₂, hbelow, hunits₂⟩ :=
    exists_ofInt_eq_of_lt (n := rows - 1) (by omega)
  have hcast : (rows : Int) - 1 = (rows - 1 : Nat) := by omega
  rw [dotRow, hcast, hsub, hdistance, hbelow, finite_mul_finite, bne_self_eq_false', hunits₁,
    hunits₂, rowOf]
  split
  next hfinite =>
    obtain ⟨m₃, e₃, c₃, hproduct, hunits₃⟩ := exists_round_eq false unitsPerOne_pos hfinite
    rw [hproduct, truncate_div c₃ c hone, hunits₃]
  next hinfinite =>
    rw [round_of_le false (Nat.le_of_not_lt hinfinite), truncate_infinity_div]

/-- The larger of two values does not stand lower. -/
theorem dotRow_le_dotRow (hv : IsInside top v) (hw : IsInside top w) (hrows : 0 < rows)
    (hlt : rows ≤ Nat.pow 2 53) (h : v ≤ w) : dotRow rows top w ≤ dotRow rows top v := by
  rw [le_iff_units_le hv.isFinite hw.isFinite hv.nonneg hw.nonneg] at h
  rw [hv.dotRow_eq hrows hlt, hw.dotRow_eq hrows hlt]
  exact rowOf_mono hv.units_pos (Nat.sub_le_sub_left h _)

theorem zero_le_top (hv : IsInside top v) : 0 ≤ top := by
  obtain ⟨m, e, c, rfl, -⟩ := hv.isFinite_top.exists_eq_of_one_le hv.one_le_top
  exact zero_le_finite c

/-- With any value, zero is inside of the graph. -/
theorem zero (hv : IsInside top v) : IsInside top 0 :=
  ⟨hv.isFinite_top, hv.one_le_top, isAmount_zero.isFinite, isAmount_zero.nonneg, hv.zero_le_top⟩

/-- The value at the top stands in the first row. -/
theorem dotRow_eq_zero (hv : IsInside top v) (hrows : 0 < rows) (hlt : rows ≤ Nat.pow 2 53)
    (h : top ≤ v) : dotRow rows top v = 0 := by
  rw [le_iff_units_le hv.isFinite_top hv.isFinite hv.zero_le_top hv.nonneg] at h
  rw [hv.dotRow_eq hrows hlt, Nat.sub_eq_zero_of_le h, rowOf_zero]

/-- As long as the product of the top is finite, every value stands in one of the rows. -/
theorem dotRow_lt (hv : IsInside top v) (hrows : 0 < rows) (hlt : rows ≤ Nat.pow 2 52)
    (hproduct : (top * ofInt (rows - 1)).IsFinite) : dotRow rows top v < rows := by
  have hpos := hv.units_pos
  have hbits : rows ≤ Nat.pow 2 53 := Nat.le_trans hlt (by decide)
  rw [hv.dotRow_eq hrows hbits]
  obtain ⟨m, e, c, rfl, -⟩ := hv.isFinite_top.exists_eq_of_one_le hv.one_le_top
  rw [units] at hpos ⊢
  apply Nat.lt_of_le_of_lt (rowOf_le hpos (by omega) _ _) (by omega)
  · apply c.rounded_le Nat.one_pos
    rw [Nat.mul_one]
    exact Nat.sub_le _ _
  · obtain ⟨m₁, e₁, c₁, hofInt, hunits⟩ := exists_ofInt_eq_of_lt (n := rows - 1) (by omega)
    have hcast : (rows : Int) - 1 = (rows - 1 : Nat) := by omega
    rw [hcast, hofInt, finite_mul_finite, hunits] at hproduct
    apply Nat.lt_of_not_le
    intro hle
    rw [round_of_le _ hle] at hproduct
    obtain ⟨_, _, _, _, heq⟩ := hproduct
    cases heq

end IsInside

end Graph

end IoWatch
