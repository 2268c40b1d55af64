import IoWatch.Amount
import IoWatch.Proofs.ShownNumbers

/-!
# The units of shown amounts

The unit of an amount is the largest one that it fills, and it is chosen before the amount is
rounded. An amount that is at most half a hundredth of its unit below the next unit is therefore
shown as 1024 of its own, and not as one of the next. This is the only case in which what is shown
fills a larger unit than the one it is shown in.

## Main definitions

* `totalNames`, `rateNames`: the names of the units
* `IsShownAs`: an amount is shown by a number in a unit

## Main results

* `exists_rateText_eq`: the number and the unit in the text of a rate
* `readAmount?_rateText`, `readAmount?_totalText`: texts of amounts are read back
* `shown_units_are_largest_unless_rounded_up`: the units of all totals and rates
* `shown_units_are_not_all_largest`: amounts that are shown as 1024 of a unit below the top one
-/

namespace IoWatch

open Binary64

/-- The names of the units of totals, each 1024 of the one before it. -/
def totalNames : List (List Char) :=
  [['B'], ['K', 'i', 'B'], ['M', 'i', 'B'], ['G', 'i', 'B'], ['T', 'i', 'B']]

/-- The names of the units of rates, each 1024 of the one before it. -/
def rateNames : List (List Char) :=
  [['K', 'B', '/', 's'], ['M', 'B', '/', 's'], ['G', 'B', '/', 's']]

/-! ## Rates -/

theorem isPower_kbPerMb : kbPerMb.IsPower 1 := by
  rw [kbPerMb, ofNat_eq]
  exact isPower_ofInt rfl (by decide)

theorem isPower_kbPerGb : kbPerGb.IsPower 2 := by
  rw [kbPerGb, ofNat_eq]
  exact isPower_ofInt rfl (by decide)

/-- The text of a rate is that of a number which counts its hundredths, and the name of its unit. -/
theorem exists_rateText_eq {x : Binary64} (hx : x.IsFinite) :
    ∃ k y name, IsUnitOf 2 x.value k ∧ Counts y x k ∧ rateNames.idxOf? name = some k ∧
      rateText x = y.fixed 2 ++ ' ' :: name := by
  have hgb := isPower_kbPerGb.le_iff hx
  have hmb := isPower_kbPerMb.le_iff hx
  rw [rateText]
  split_ifs with h2 h1 <;> rw [hgb] at h2
  · exact ⟨2, _, _, ⟨le_rfl, .inr h2, .inl rfl⟩, Counts.div_unit hx isPower_kbPerGb h2, rfl, rfl⟩
  · rw [hmb] at h1
    exact ⟨1, _, _, ⟨by decide, .inr h1, .inr (not_le.mp h2)⟩,
      Counts.div_unit hx isPower_kbPerMb h1, rfl, rfl⟩
  · rw [hmb] at h1
    exact ⟨0, _, _, ⟨by decide, .inl rfl, .inr (not_le.mp h1)⟩, Counts.self hx, rfl, rfl⟩

/-- The text of a rate is read back, in the unit of the rate. -/
theorem readAmount?_rateText {x : Binary64} (hx : x.IsFinite) :
    ∃ k, IsUnitOf 2 x.value k ∧ readAmount? rateNames (rateText x) = some (x.shown k, k) := by
  obtain ⟨k, y, name, hunit, hcounts, hname, htext⟩ := exists_rateText_eq hx
  exact ⟨k, hunit, htext ▸ hcounts.readAmount?_fixed hname⟩

/-! ## Totals -/

section Total

variable {n k : ℕ}

/-- What is below the top unit is a number. -/
theorem IsUnitOf.lt_of_ne_top (h : IsUnitOf 4 n k) (hk : k ≠ 4) : n < Nat.pow 2 53 := by
  have hnext : n < 1024 ^ (k + 1) := by exact_mod_cast h.next.resolve_left hk
  have htop : k + 1 ≤ 4 := Nat.lt_of_le_of_ne h.le_top hk
  exact lt_trans (lt_of_lt_of_le hnext (Nat.pow_le_pow_right (by decide) htop)) (by decide)

/-- A number of bytes has the unit of what it is read as. -/
theorem IsUnitOf.value_ofInt (hn : n < Nat.pow 2 63) (h : IsUnitOf 4 n k) :
    IsUnitOf 4 (ofInt n).value k := by
  refine ⟨h.le_top, h.fills.imp_right fun hfills => ?_, ?_⟩
  · have hle : 1024 ^ k ≤ 1024 ^ 4 := Nat.pow_le_pow_right (by decide) h.le_top
    have hunit := value_ofInt_of_lt (lt_of_le_of_lt hle (by decide))
    have hmono := value_ofInt_mono (lt_trans hn (by decide)) (by exact_mod_cast hfills)
    rw [hunit] at hmono
    exact_mod_cast hmono
  · refine or_iff_not_imp_left.mpr fun hk => ?_
    rw [value_ofInt_of_lt (h.lt_of_ne_top hk)]
    exact h.next.resolve_left hk

/-- A number of bytes is read back from its text in a unit. -/
theorem readAmount?_inUnit {i unit : ℤ} {name : List Char} (hi : i.toNat < Nat.pow 2 63)
    (hunit : unit = 1024 ^ k) (h : IsUnitOf 4 i.toNat k) (hk : k ≠ 0)
    (hname : totalNames.idxOf? name = some k) :
    readAmount? totalNames (inUnit i unit ++ ' ' :: name) = some ((ofInt i.toNat).shown k, k) := by
  have hfills : 1024 ^ k ≤ i.toNat := by exact_mod_cast h.fills.resolve_left hk
  have hpos : 0 < i.toNat := lt_of_lt_of_le (by positivity) hfills
  have hnat : ofInt i = ofInt i.toNat := by rw [Int.toNat_of_nonneg (by omega)]
  have hvalue := (h.value_ofInt hi).fills.resolve_left hk
  obtain ⟨m, e, c, hofInt, -⟩ := exists_ofInt_eq hi (by decide)
  rw [inUnit, hnat]
  have hcounts := Counts.div_unit ⟨_, _, _, _, hofInt⟩ (isPower_ofInt hunit h.le_top) hvalue
  exact hcounts.readAmount?_fixed hname

/-- Below one kibibyte, the bytes themselves are shown. -/
theorem shown_ofInt_of_lt (hn : n < Nat.pow 2 53) : (ofInt n).shown 0 = n := by
  have hvalue := value_ofInt_of_lt hn
  apply le_antisymm
  · exact Binary64.shown_le (by rw [hvalue, pow_zero, mul_one])
  · exact Binary64.le_shown (by rw [hvalue, pow_zero, mul_one])

theorem toNat_toInt_lt (b : Int64) : b.toInt.toNat < Nat.pow 2 63 := by
  have h : b.toInt < (2 : ℕ) ^ 63 := b.toInt_lt
  show b.toInt.toNat < 2 ^ 63
  omega

/-- A unit is compared with the bytes that are shown like with all of them. -/
theorem unit_le_toInt_iff {i : ℤ} (k : ℕ) : 1024 ^ k ≤ i ↔ (1024 : ℚ) ^ k ≤ i.toNat := by
  have hpos : 0 < 1024 ^ k := by positivity
  have hnat : (1024 : ℤ) ^ k ≤ i ↔ 1024 ^ k ≤ i.toNat := by
    rw [← Nat.cast_ofNat, ← Nat.cast_pow]
    omega
  rw [hnat]
  exact_mod_cast Iff.rfl

/-- The text of a number of bytes is read back, in the unit of the number. The tests are those of
the units, from the top one down. -/
theorem readAmount?_totalText (b : Int64) :
    ∃ k, IsUnitOf 4 b.toInt.toNat k ∧
      readAmount? totalNames (totalText b) = some ((ofInt b.toInt.toNat).shown k, k) := by
  have hword := toNat_toInt_lt b
  have htebi : tebibyte = 1024 ^ 4 := rfl
  have hgibi : gibibyte = 1024 ^ 3 := rfl
  have hmebi : mebibyte = 1024 ^ 2 := rfl
  have hkibi : kibibyte = 1024 ^ 1 := rfl
  rw [totalText]
  simp only [htebi, hgibi, hmebi, hkibi, unit_le_toInt_iff]
  split_ifs with h4 h3 h2 h1
  · have hunit : IsUnitOf 4 b.toInt.toNat 4 := ⟨le_rfl, .inr h4, .inl rfl⟩
    exact ⟨4, hunit, readAmount?_inUnit hword rfl hunit (by decide) rfl⟩
  · have hunit : IsUnitOf 4 b.toInt.toNat 3 := ⟨by decide, .inr h3, .inr (not_le.mp h4)⟩
    exact ⟨3, hunit, readAmount?_inUnit hword rfl hunit (by decide) rfl⟩
  · have hunit : IsUnitOf 4 b.toInt.toNat 2 := ⟨by decide, .inr h2, .inr (not_le.mp h3)⟩
    exact ⟨2, hunit, readAmount?_inUnit hword rfl hunit (by decide) rfl⟩
  · have hunit : IsUnitOf 4 b.toInt.toNat 1 := ⟨by decide, .inr h1, .inr (not_le.mp h2)⟩
    exact ⟨1, hunit, readAmount?_inUnit hword rfl hunit (by decide) rfl⟩
  · refine ⟨0, ⟨by decide, .inl rfl, .inr (not_le.mp h1)⟩, ?_⟩
    have hlt : b.toInt.toNat < 1024 := by exact_mod_cast not_le.mp h1
    rw [shown_ofInt_of_lt (lt_trans hlt (by decide))]
    have hblank := (digitText_toDigits b.toInt.toNat).not_mem (c := ' ') (by decide)
    exact readAmount?_append hblank (number?_toDigits _) rfl

end Total

/-! ## What is shown -/

/-- How an amount is shown by a number in a unit. The unit is that of the amount. Below the top unit
no more than 1024 is shown, and less than that if the amount is more than half a hundredth below it.
Otherwise what is shown fills the next unit too. -/
structure IsShownAs (top : ℕ) (amount n : ℚ) (k : ℕ) : Prop where
  isUnitOf : IsUnitOf top amount k
  le : k = top ∨ n ≤ 1024
  lt_iff : k = top ∨ (n < 1024 ↔ amount < (1024 - 1 / 200) * 1024 ^ k)
  largest_iff :
    IsUnitOf top (n * 1024 ^ k) k ↔ k = top ∨ amount < (1024 - 1 / 200) * 1024 ^ k

section Shown

variable {top k : ℕ} {amount : ℚ} {x : Binary64}

/-- What is shown fills no larger unit if it is less than 1024. -/
theorem IsUnitOf.shown_iff (h : IsUnitOf top x.value k) :
    IsUnitOf top (x.shown k * 1024 ^ k) k ↔ k = top ∨ x.shown k < 1024 := by
  have hunit : (0 : ℚ) < 1024 ^ k := by positivity
  have hnext : x.shown k * 1024 ^ k < 1024 ^ (k + 1) ↔ x.shown k < 1024 := by
    rw [pow_succ', mul_lt_mul_iff_left₀ hunit]
  constructor
  · exact fun hlargest => hlargest.next.imp_right hnext.mp
  · intro hlt
    refine ⟨h.le_top, ?_, hlt.imp_right hnext.mpr⟩
    by_cases hk : k = 0
    · exact .inl hk
    · exact .inr (le_mul_of_one_le_left hunit.le (h.le_shown hk))

/-- What is shown of a number that an amount is read as, exactly so below the top unit. -/
theorem isShownAs (hx : IsUnitOf top x.value k) (h : IsUnitOf top amount k)
    (hexact : k = top ∨ x.value = amount) : IsShownAs top amount (x.shown k) k := by
  have hlt : k = top ∨ (x.shown k < 1024 ↔ amount < (1024 - 1 / 200) * 1024 ^ k) := by
    refine hexact.imp_right fun hvalue => ?_
    have hreach : 1024 ≤ x.shown k ↔ (1024 - 1 / 200) * 1024 ^ k ≤ x.value :=
      le_shown_iff (n := 1024) (by decide)
    rw [← not_le, ← not_le, hreach, hvalue]
  refine ⟨h, or_iff_not_imp_left.mpr hx.shown_le, hlt, hx.shown_iff.trans ?_⟩
  by_cases hk : k = top
  · exact iff_of_true (.inl hk) (.inl hk)
  · rw [or_iff_right hk, or_iff_right hk]
    exact hlt.resolve_left hk

end Shown

/-- The unit of a total or a rate is the largest one that it fills. It is the largest one that what
is shown fills too, unless that has been rounded up to 1024 of a unit below the top one. -/
theorem shown_units_are_largest_unless_rounded_up (b : Int64) {x : Binary64} (hx : x.IsFinite) :
    (∃ n k, readAmount? totalNames (totalText b) = some (n, k) ∧
      IsShownAs 4 b.toInt.toNat n k) ∧
    ∃ n k, readAmount? rateNames (rateText x) = some (n, k) ∧ IsShownAs 2 x.value n k := by
  constructor
  · obtain ⟨k, hunit, hread⟩ := readAmount?_totalText b
    refine ⟨_, k, hread, isShownAs (hunit.value_ofInt (toNat_toInt_lt b)) hunit ?_⟩
    exact or_iff_not_imp_left.mpr fun hk => value_ofInt_of_lt (hunit.lt_of_ne_top hk)
  · obtain ⟨k, hunit, hread⟩ := readAmount?_rateText hx
    exact ⟨_, k, hread, isShownAs hunit hunit (.inr rfl)⟩

theorem isFinite_below_mb : (1048575 / 1024 : Binary64).IsFinite := by
  have hbytes : (1048575 : Binary64).IsBetween (19 + 1074) (20 + 1074) :=
    isBetween_ofInt (by decide) (by decide) (by decide)
  have hkb := hbytes.div isPower_kbPerMb (k := 1083) (l := 1084) rfl rfl (by decide)
  exact hkb.isAmount.isFinite

/-- One byte less than a mebibyte, and as much in a second. -/
theorem shown_units_are_largest_unless_rounded_up_below_mb :
    (1048575 / 1024 : Binary64).IsFinite ∧
    (∃ n k, readAmount? totalNames (totalText 1048575) = some (n, k) ∧
      IsShownAs 4 (1048575 : Int64).toInt.toNat n k) ∧
    ∃ n k, readAmount? rateNames (rateText (1048575 / 1024)) = some (n, k) ∧
      IsShownAs 2 (1048575 / 1024 : Binary64).value n k :=
  ⟨isFinite_below_mb, shown_units_are_largest_unless_rounded_up 1048575 isFinite_below_mb⟩

/-- Some totals and rates are shown as 1024 of a unit below the top one. -/
theorem shown_units_are_not_all_largest :
    totalText 1048575 = "1024.00 KiB".toList ∧ rateText (1048575 / 1024) = "1024.00 KB/s".toList ∧
    (¬ ∀ b : Int64, ∀ n k, readAmount? totalNames (totalText b) = some (n, k) →
      k < 4 → n < 1024) ∧
    ¬ ∀ x : Binary64, x.IsFinite → ∀ n k, readAmount? rateNames (rateText x) = some (n, k) →
      k < 2 → n < 1024 := by
  refine ⟨by decide +kernel, by decide +kernel, fun h => ?_, fun h => ?_⟩
  · have hread : readAmount? totalNames (totalText 1048575) = some (1024, 1) := by decide +kernel
    exact absurd (h _ _ _ hread (by decide)) (lt_irrefl _)
  · have hread : readAmount? rateNames (rateText (1048575 / 1024)) = some (1024, 0) := by
      decide +kernel
    exact absurd (h _ isFinite_below_mb _ _ hread (by decide)) (lt_irrefl _)

end IoWatch
