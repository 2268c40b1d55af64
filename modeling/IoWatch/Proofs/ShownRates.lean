import IoWatch.Proofs.ShownAmounts

/-!
# Rates are shown accurately and in order

A rate is shown with its sign and two places in its unit. Dividing by the unit is exact, so the last
place is all that is rounded, and at most half of it is lost. Between rates of different units
stands a whole unit, which the rounding does not cross. A rate that is no finite number is shown by
its name.

## Main results

* `IsUnitOf.unit_of_rate_iff`: the three units of rates by their bounds
* `shown_rates_are_accurate_and_ordered`: what the texts of all rates stand for
-/

namespace IoWatch

open Binary64

/-! ## Units of rates -/

/-- Each of the three units has the rates between two bounds, and the outer ones have all beyond. -/
theorem IsUnitOf.unit_of_rate_iff {amount : ℚ} {k : ℕ} (h : IsUnitOf 2 amount k) :
    (k = 2 ↔ 2 ^ 20 ≤ amount) ∧ (k = 1 ↔ 2 ^ 10 ≤ amount ∧ amount < 2 ^ 20) ∧
      (k = 0 ↔ amount < 2 ^ 10) := by
  have hmb : (2 : ℚ) ^ 10 = 1024 ^ 1 := by norm_num
  have hgb : (2 : ℚ) ^ 20 = 1024 ^ 2 := by norm_num
  have htop := h.le_top
  rw [hmb, hgb, ← not_le, ← not_le, ← h.le_iff one_ne_zero one_le_two,
    ← h.le_iff two_ne_zero le_rfl]
  omega

/-! ## What the texts stand for -/

/-- The text of a finite rate is a number with two places and a sign, a blank and a unit, which is
the largest one that the rate fills. It stands for an amount that is at most half a hundredth of the
unit away from the rate. The text of the larger of two rates does not stand for less. A rate that is
no finite number has a text too. -/
theorem shown_rates_are_accurate_and_ordered :
    (∀ x : Binary64, x.IsFinite → ∃ number name n k,
      rateText x = number ++ ' ' :: name ∧ PlacesText 2 number n ∧ rateNames[k]? = some name ∧
      readAmount? rateNames (rateText x) = some (n, k) ∧
      |n * 1024 ^ k - x.value| ≤ 1024 ^ k / 200 ∧
      (k = 2 ↔ 2 ^ 20 ≤ x.value) ∧ (k = 1 ↔ 2 ^ 10 ≤ x.value ∧ x.value < 2 ^ 20) ∧
      (k = 0 ↔ x.value < 2 ^ 10)) ∧
    (∀ x y : Binary64, x.IsFinite → y.IsFinite → x ≤ y → ∃ n k m l,
      readAmount? rateNames (rateText x) = some (n, k) ∧
      readAmount? rateNames (rateText y) = some (m, l) ∧ n * 1024 ^ k ≤ m * 1024 ^ l) ∧
    rateText .nan = "NaN KB/s".toList ∧ rateText (.infinity true) = "-inf KB/s".toList ∧
    rateText (.infinity false) = "inf GB/s".toList := by
  refine ⟨fun x hx => ?_, fun x y hx hy h => ?_, ?_⟩
  · obtain ⟨k, y, name, hunit, hcounts, hname, htext⟩ := exists_rateText_eq hx
    refine ⟨_, name, x.shown k, k, htext, hcounts.placesText_fixed, ?_, ?_,
      abs_shown_sub_value_le x k, hunit.unit_of_rate_iff⟩
    · obtain ⟨hlt, heq, -⟩ := List.idxOf?_eq_some_iff.mp hname
      rw [List.getElem?_eq_getElem hlt, heq]
    · rw [htext]
      exact hcounts.readAmount?_fixed hname
  · obtain ⟨k, hk, hreadx⟩ := readAmount?_rateText hx
    obtain ⟨l, hl, hready⟩ := readAmount?_rateText hy
    exact ⟨_, k, _, l, hreadx, hready, hk.shown_mul_le hl ((hx.le_iff_value_le hy).mp h)⟩
  · refine ⟨?_, ?_, ?_⟩ <;> decide +kernel

/-- The negative number next to zero, and two rates with a change of units between them that are
shown as the same amount. -/
theorem shown_rates_are_accurate_and_ordered_across_units :
    let least : Binary64 := .finite true 1 0 (by decide)
    (least.IsFinite ∧ ∃ n k, readAmount? rateNames (rateText least) = some (n, k) ∧
      |n * 1024 ^ k - least.value| ≤ 1024 ^ k / 200) ∧
    (1048575 / 1024 : Binary64).IsFinite ∧ kbPerMb.IsFinite ∧ 1048575 / 1024 ≤ kbPerMb ∧
    ∃ n k m l, readAmount? rateNames (rateText (1048575 / 1024)) = some (n, k) ∧
      readAmount? rateNames (rateText kbPerMb) = some (m, l) ∧ n * 1024 ^ k ≤ m * 1024 ^ l := by
  intro least
  have hleast : least.IsFinite := ⟨_, _, _, _, rfl⟩
  have hmb : kbPerMb.IsFinite := isPower_kbPerMb.isAmount.isFinite
  have hle : 1048575 / 1024 ≤ kbPerMb := by decide +kernel
  obtain ⟨-, -, n, k, -, -, -, hread, hnear, -⟩ :=
    shown_rates_are_accurate_and_ordered.1 least hleast
  exact ⟨⟨hleast, n, k, hread, hnear⟩, isFinite_below_mb, hmb, hle,
    shown_rates_are_accurate_and_ordered.2.1 _ _ isFinite_below_mb hmb hle⟩

end IoWatch
