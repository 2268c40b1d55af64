import IoWatch.Proofs.ShownAmounts
import Mathlib.Algebra.Order.AbsoluteValue.Basic

/-!
# Totals are shown accurately and in order

A total is rounded twice: to a number when it has more than 53 bits, and to hundredths of its unit.
The first rounding takes away at most 512 bytes, since a word has 63 bits, and the second at most
half a hundredth of the unit. Both keep the order, and between totals of different units stands a
whole unit, which neither of them crosses.

## Main definitions

* `readTotal?`: the bytes that the text of a total stands for

## Main results

* `abs_shown_total_sub_le`: what is lost of a total
* `shown_total_mono`: the order of totals is kept
* `shown_totals_are_accurate_and_ordered`: both, for every word
-/

namespace IoWatch

open Binary64

/-- The bytes that the text of a total stands for. -/
def readTotal? (cs : List Char) : Option ℚ :=
  (readAmount? totalNames cs).map fun (n, k) => n * 1024 ^ k

variable {n m k l : ℕ}

/-- What does not fill the second unit is in the first one. -/
theorem IsUnitOf.eq_zero (h : IsUnitOf 4 n k) (hn : n < 1024) : k = 0 := by
  by_contra hk
  have hfills : 1024 ^ k ≤ n := by exact_mod_cast h.fills.resolve_left hk
  have hone : 1024 ^ 1 ≤ 1024 ^ k := Nat.pow_le_pow_right (by decide) (Nat.pos_of_ne_zero hk)
  omega

/-- Below one kibibyte, nothing is lost. -/
theorem shown_total_of_lt (h : IsUnitOf 4 n k) (hn : n < 1024) :
    (ofInt n).shown k * 1024 ^ k = n := by
  rw [h.eq_zero hn, shown_ofInt_of_lt (lt_trans hn (by decide)), pow_zero, mul_one]

/-- What reading a total as a number takes away. -/
theorem abs_value_total_sub_le (hn : n < Nat.pow 2 63) :
    |(ofInt n).value - n| ≤ if n < Nat.pow 2 53 then 0 else 512 := by
  split_ifs with hsmall
  · rw [value_ofInt_of_lt hsmall, sub_self, abs_zero]
  · have h := abs_value_ofInt_sub_le (k := 10) hn (by decide)
    norm_num at h
    exact h

/-- What is lost of a total: half a hundredth of the unit, and what reading takes away. -/
theorem abs_shown_total_sub_le (hn : n < Nat.pow 2 63) (k : ℕ) :
    |(ofInt n).shown k * 1024 ^ k - n| ≤
      1024 ^ k / 200 + if n < Nat.pow 2 53 then 0 else 512 := by
  calc |(ofInt n).shown k * 1024 ^ k - n|
      ≤ |(ofInt n).shown k * 1024 ^ k - (ofInt n).value| + |(ofInt n).value - n| :=
        abs_sub_le _ _ _
    _ ≤ 1024 ^ k / 200 + if n < Nat.pow 2 53 then 0 else 512 :=
        add_le_add (abs_shown_sub_value_le _ k) (abs_value_total_sub_le hn)

/-- The order of totals is kept, whatever their units are. -/
theorem shown_total_mono (hm : m < Nat.pow 2 63) (hk : IsUnitOf 4 n k) (hl : IsUnitOf 4 m l)
    (h : n ≤ m) : (ofInt n).shown k * 1024 ^ k ≤ (ofInt m).shown l * 1024 ^ l :=
  (hk.value_ofInt (lt_of_le_of_lt h hm)).shown_mul_le (hl.value_ofInt hm)
    (value_ofInt_mono (lt_trans hm (by decide)) h)

/-- The text of a total that is not above zero stands for no bytes, and that of a total below one
kibibyte for exactly as many. From one kibibyte on, it is off by at most half a hundredth of the
unit and, from `2 ^ 53` on, 512 bytes more. The text of the larger of two totals does not stand for
fewer bytes. -/
theorem shown_totals_are_accurate_and_ordered :
    (∀ b : Int64, ∃ n k, readAmount? totalNames (totalText b) = some (n, k) ∧
      IsUnitOf 4 b.toInt.toNat k ∧
      (b ≤ 0 → n * 1024 ^ k = 0) ∧
      (0 < b → b < 1024 → n * 1024 ^ k = b.toInt) ∧
      (1024 ≤ b → |n * 1024 ^ k - b.toInt| ≤
        1024 ^ k / 200 + if b.toInt < Nat.pow 2 53 then 0 else 512)) ∧
    ∀ b c : Int64, b ≤ c → ∃ v w, readTotal? (totalText b) = some v ∧
      readTotal? (totalText c) = some w ∧ v ≤ w := by
  constructor
  · intro b
    obtain ⟨k, hunit, hread⟩ := readAmount?_totalText b
    have hword := toNat_toInt_lt b
    refine ⟨_, k, hread, hunit, ?_⟩
    rw [Int64.le_iff_toInt_le, Int64.lt_iff_toInt_lt, Int64.lt_iff_toInt_lt, Int64.le_iff_toInt_le,
      Int64.toInt_zero, show (1024 : Int64).toInt = 1024 from rfl]
    generalize b.toInt = i at hunit hword
    rcases le_or_gt i 0 with hle | hpos
    · rw [Int.toNat_of_nonpos hle] at hunit ⊢
      refine ⟨fun _ => ?_, fun hpos => ?_, fun hlarge => ?_⟩
      · rw [shown_total_of_lt hunit (by decide), Nat.cast_zero]
      · omega
      · omega
    · obtain ⟨n, rfl⟩ := Int.eq_ofNat_of_zero_le hpos.le
      rw [Int.toNat_natCast] at hunit hword ⊢
      rw [Int.cast_natCast, if_congr Nat.cast_lt rfl rfl]
      refine ⟨fun hle => ?_, fun _ hlt => ?_, fun _ => abs_shown_total_sub_le hword k⟩
      · omega
      · exact shown_total_of_lt hunit (by omega)
  · intro b c hbc
    obtain ⟨k, hk, hreadb⟩ := readAmount?_totalText b
    obtain ⟨l, hl, hreadc⟩ := readAmount?_totalText c
    rw [Int64.le_iff_toInt_le] at hbc
    refine ⟨_, _, by rw [readTotal?, hreadb]; rfl, by rw [readTotal?, hreadc]; rfl, ?_⟩
    exact shown_total_mono (toNat_toInt_lt c) hk hl (Int.toNat_le_toNat hbc)

/-- The greatest word, and two totals with a change of units between them. -/
theorem shown_totals_are_accurate_and_ordered_across_units :
    (1024 ≤ Int64.maxValue ∧ ∃ n k,
      readAmount? totalNames (totalText Int64.maxValue) = some (n, k) ∧
      |n * 1024 ^ k - Int64.maxValue.toInt| ≤
        1024 ^ k / 200 + if Int64.maxValue.toInt < Nat.pow 2 53 then 0 else 512) ∧
    (1048575 : Int64) ≤ 1048576 ∧ ∃ v w, readTotal? (totalText 1048575) = some v ∧
      readTotal? (totalText 1048576) = some w ∧ v ≤ w := by
  obtain ⟨n, k, hread, -, -, -, hnear⟩ := shown_totals_are_accurate_and_ordered.1 Int64.maxValue
  exact ⟨⟨by decide, n, k, hread, hnear (by decide)⟩, by decide,
    shown_totals_are_accurate_and_ordered.2 _ _ (by decide)⟩

end IoWatch
