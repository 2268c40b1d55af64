import IoWatch.Proofs.AcceptedSettings
import Mathlib.Order.MinMax

/-!
# The length of the history

The history of a dashboard has as many entries as redraws fall into its span. Span and period are
words; a span that is no word any more counts as the largest word, and a period of nothing as one
millisecond, so the quotient is there for all settings. It is cut to a range that holds at least one
entry. Settings that pass the checks have a span which is a word, and unless their quotient is cut,
the entries cover the span up to less than one period.

## Main definitions

* `redraws spanMs periodMs`: the redraws that fall into a span

## Main results

* `Settings.historyLength_eq`: what the words compute, in natural numbers
* `redraws_mono`: longer spans and shorter periods have more redraws
* `redraws_cover`: the redraws of a span that is a word cover it
* `history_covers_its_span`: the length of the history for all settings
-/

namespace IoWatch

/-! ## Redraws -/

/-- The redraws that fall into a span. A span beyond all words counts as the largest word, and a
period of nothing as one millisecond. -/
def redraws (spanMs periodMs : ℕ) : ℕ := min spanMs (Nat.pow 2 64 - 1) / max periodMs 1

variable {span span' period period' : ℕ}

/-- Longer spans and shorter periods have more redraws. -/
theorem redraws_mono (hspan : span ≤ span') (hperiod : period' ≤ period) :
    redraws span period ≤ redraws span' period' := by
  apply Nat.div_le_div
  · exact min_le_min_right _ hspan
  · exact max_le_max_right _ hperiod
  · exact Nat.ne_of_gt (lt_max_of_lt_right Nat.one_pos)

/-- The redraws of a span that is a word take no more time than the span has, and one more redraw
would. -/
theorem redraws_cover (hspan : span < Nat.pow 2 64) (hperiod : 0 < period) :
    redraws span period * period ≤ span ∧ span < (redraws span period + 1) * period := by
  have hword : min span (Nat.pow 2 64 - 1) = span := min_eq_left (Nat.le_sub_one_of_lt hspan)
  rw [redraws, hword, max_eq_left hperiod]
  exact ⟨Nat.div_mul_le_self span period, Nat.lt_mul_of_div_lt (Nat.lt_succ_self _) hperiod⟩

/-! ## Settings -/

namespace Settings

variable {s t : Settings}

theorem toNat_saturatingMul (a b : UInt64) :
    (saturatingMul a b).toNat = min (a.toNat * b.toNat) (Nat.pow 2 64 - 1) := by
  apply Nat.mod_eq_of_lt
  exact Nat.lt_of_le_of_lt (min_le_right _ _) (by decide)

theorem toNat_max (a b : UInt64) : (max a b).toNat = max a.toNat b.toNat := by
  show (if a ≤ b then b else a).toNat = _
  rw [apply_ite UInt64.toNat, max_def]
  exact if_congr UInt64.le_iff_toNat_le rfl rfl

/-- The words compute what the natural numbers do: the redraws of the span, cut to the range. -/
theorem historyLength_eq (s : Settings) :
    s.historyLength =
      max 1 (min (redraws (s.historySecs.toNat * 1000) s.refreshMs.toNat) 10000) := by
  rw [historyLength, UInt64.toNat_div, toNat_saturatingMul, toNat_max]
  rfl

/-- The span of settings that pass the checks is a word. -/
theorem IsValid.span_lt (h : s.IsValid) : s.historySecs.toNat * 1000 < Nat.pow 2 64 := by
  have hle := UInt64.le_iff_toNat_le.mp h.historySecs.2
  have hmax : (3600 : UInt64).toNat * 1000 < Nat.pow 2 64 := by decide
  exact lt_of_le_of_lt (Nat.mul_le_mul_right 1000 hle) hmax

theorem IsValid.period_pos (h : s.IsValid) : 0 < s.refreshMs.toNat := by
  rw [Nat.pos_iff_ne_zero]
  intro hzero
  exact h.refreshMs (UInt64.toNat_inj.mp hzero)

/-- A history that is not cut has the redraws of its span. -/
theorem historyLength_eq_redraws (hlow : 1 < s.historyLength) (hhigh : s.historyLength < 10000) :
    s.historyLength = redraws (s.historySecs.toNat * 1000) s.refreshMs.toNat := by
  rw [historyLength_eq] at hlow hhigh ⊢
  omega

/-- A longer span or a shorter period never makes the history shorter. -/
theorem historyLength_mono (hsecs : s.historySecs ≤ t.historySecs)
    (hrefresh : t.refreshMs ≤ s.refreshMs) : s.historyLength ≤ t.historyLength := by
  rw [historyLength_eq, historyLength_eq]
  apply max_le_max_left
  apply min_le_min_right
  apply redraws_mono
  · exact Nat.mul_le_mul_right 1000 (UInt64.le_iff_toNat_le.mp hsecs)
  · exact UInt64.le_iff_toNat_le.mp hrefresh

end Settings

/-- For all settings, checked or not, the history has as many entries as redraws fall into its span,
but at least one and at most 10000; no step of the computation leaves the words or divides by zero.
For settings that pass the checks the entries of a history that is not cut cover the span, and
leave less than one period of it. Longer spans do not have shorter histories, nor do shorter
periods. -/
theorem history_covers_its_span :
    (∀ s : Settings,
      s.historyLength =
        max 1 (min (redraws (s.historySecs.toNat * 1000) s.refreshMs.toNat) 10000) ∧
      1 ≤ s.historyLength ∧ s.historyLength ≤ 10000) ∧
    (∀ s : Settings, s.validate = .ok () → 1 < s.historyLength → s.historyLength < 10000 →
      s.historyLength * s.refreshMs.toNat ≤ s.historySecs.toNat * 1000 ∧
      s.historySecs.toNat * 1000 < (s.historyLength + 1) * s.refreshMs.toNat) ∧
    ∀ s t : Settings, s.historySecs ≤ t.historySecs → t.refreshMs ≤ s.refreshMs →
      s.historyLength ≤ t.historyLength := by
  refine ⟨fun s => ?_, fun s hs hlow hhigh => ?_, fun s t => Settings.historyLength_mono⟩
  · exact ⟨s.historyLength_eq, s.one_le_historyLength, s.historyLength_le⟩
  · rw [Settings.validate_eq_ok_iff] at hs
    rw [Settings.historyLength_eq_redraws hlow hhigh]
    exact redraws_cover hs.span_lt hs.period_pos

/-- Three redraws and a part of one in a second, and settings beyond all words on both sides of
it. -/
theorem history_covers_its_span_of_a_second :
    let s : Settings := { Settings.standard with historySecs := 1, refreshMs := 300 }
    let long : Settings := { s with historySecs := 18446744073709551615, refreshMs := 0 }
    let short : Settings := { s with historySecs := 0, refreshMs := 18446744073709551615 }
    (s.validate = .ok () ∧ s.historyLength = 3 ∧ 3 * 300 ≤ 1000 ∧ 1000 < (3 + 1) * 300) ∧
    (short.historySecs ≤ s.historySecs ∧ s.refreshMs ≤ short.refreshMs ∧
      short.historyLength ≤ s.historyLength) ∧
    s.historySecs ≤ long.historySecs ∧ long.refreshMs ≤ s.refreshMs ∧
    s.historyLength ≤ long.historyLength := by
  intro s long short
  have hvalid : s.validate = .ok () := by decide
  have hlength : s.historyLength = 3 := by decide
  have hcover := history_covers_its_span.2.1 s hvalid (by omega) (by omega)
  have hsecs : s.historySecs.toNat = 1 := by decide
  have hrefresh : s.refreshMs.toNat = 300 := by decide
  rw [hlength, hsecs, hrefresh] at hcover
  have hmono := history_covers_its_span.2.2
  have hshort : s.refreshMs ≤ short.refreshMs := by decide +kernel
  have hlong : s.historySecs ≤ long.historySecs := by decide +kernel
  exact ⟨⟨hvalid, hlength, hcover⟩,
    ⟨by decide, hshort, hmono short s (by decide) hshort⟩,
    hlong, by decide, hmono s long hlong (by decide)⟩

end IoWatch
