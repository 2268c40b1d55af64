import IoWatch.Proofs.Overflow
import Mathlib.Data.List.DropRight

/-!
# What a usage remembers

Of all the samples that it has taken, a usage remembers the last two readable ones. Every answer it
gives, and every abort, is one that it would give if it had taken only these.

## Main definitions

* `Sample.readable samples`: the readable samples of a list
* `Sample.lastTwo samples`: the last two of them, or all if there are fewer
* `Window.IsReadable`: both samples of a window are readable
* `Usage.Alike`: no question tells two usages apart

## Main results

* `Window.advanceAll_lastTwo`: a window remembers the last two readable samples
* `Usage.rate_of_snapshot`, `Usage.snapshot_aborts_iff`: a rate is the same by itself and in a
  snapshot, and a snapshot is missing exactly if a rate is
* `Usage.remembers_last_two`: no question about a usage needs more
-/

namespace IoWatch

/-! ## Readable samples -/

namespace Sample

/-- The readable samples of a list. -/
def readable (samples : List Sample) : List Sample := samples.filter fun x => !x.isUnreadable

/-- The last two readable samples of a list, or all of them if there are fewer. -/
def lastTwo (samples : List Sample) : List Sample := (readable samples).rtake 2

theorem readable_cons_of_readable {x : Sample} (h : x.isUnreadable = false)
    (samples : List Sample) : readable (x :: samples) = x :: readable samples := by
  simp [readable, h]

theorem readable_cons_of_unreadable {x : Sample} (h : x.isUnreadable = true)
    (samples : List Sample) : readable (x :: samples) = readable samples := by
  simp [readable, h]

theorem isUnreadable_of_mem_readable {samples : List Sample} {x : Sample}
    (h : x ∈ readable samples) : x.isUnreadable = false := by
  simpa using (List.mem_filter.mp h).2

end Sample

namespace Window

open Sample (readable lastTwo)

/-- Both samples of a window are readable. -/
structure IsReadable (w : Window) : Prop where
  previous : w.previous.isUnreadable = false
  current : w.current.isUnreadable = false

theorem isReadable_initial : initial.IsReadable := ⟨rfl, rfl⟩

theorem IsReadable.advance {w : Window} (h : w.IsReadable) (x : Sample) :
    (w.advance x).IsReadable := by
  cases hx : x.isUnreadable with
  | true => rwa [advance_of_unreadable hx]
  | false =>
    rw [advance_of_readable hx]
    exact ⟨h.current, hx⟩

theorem IsReadable.advanceAll {w : Window} (h : w.IsReadable) (samples : List Sample) :
    (w.advanceAll samples).IsReadable := by
  induction samples generalizing w with
  | nil => exact h
  | cons x samples ih => exact ih (h.advance x)

/-- Unreadable samples might as well not be there. -/
theorem advanceAll_readable (w : Window) (samples : List Sample) :
    w.advanceAll (readable samples) = w.advanceAll samples := by
  induction samples generalizing w with
  | nil => rfl
  | cons x samples ih =>
    cases hx : x.isUnreadable with
    | true =>
      rw [Sample.readable_cons_of_unreadable hx, advanceAll_cons, advance_of_unreadable hx]
      exact ih w
    | false =>
      rw [Sample.readable_cons_of_readable hx, advanceAll_cons, advanceAll_cons]
      exact ih (w.advance x)

/-- Two readable samples at the end leave nothing else in a window. -/
theorem advanceAll_concat_concat (w : Window) (samples : List Sample) {x y : Sample}
    (hx : x.isUnreadable = false) (hy : y.isUnreadable = false) :
    w.advanceAll (samples ++ [x] ++ [y]) = ⟨x, y⟩ := by
  rw [advanceAll_append, advanceAll_append, advanceAll_cons, advanceAll_cons, advanceAll_nil,
    advanceAll_nil, advance_of_readable hx, advance_of_readable hy]

/-- **A window remembers the last two readable samples.** Fewer than two are all kept, and two fill
the window. -/
theorem advanceAll_lastTwo (w : Window) (samples : List Sample) :
    w.advanceAll (lastTwo samples) = w.advanceAll samples := by
  rw [← w.advanceAll_readable samples, lastTwo]
  have hmem : ∀ x ∈ readable samples, x.isUnreadable = false :=
    fun x => Sample.isUnreadable_of_mem_readable
  generalize readable samples = xs at hmem ⊢
  rcases List.eq_nil_or_concat' xs with rfl | ⟨xs, y, rfl⟩
  · rfl
  rcases List.eq_nil_or_concat' xs with rfl | ⟨xs, x, rfl⟩
  · rfl
  have hx := hmem x (by simp)
  have hy := hmem y (by simp)
  rw [List.rtake_concat_succ, List.rtake_concat_succ, List.rtake_zero,
    advanceAll_concat_concat w [] hx hy, advanceAll_concat_concat w xs hx hy]

end Window

/-! ## Rates -/

namespace Usage

/-- A rate is the same by itself and in a snapshot. -/
theorem rate_of_snapshot {u : Usage} {s : Snapshot} (h : u.snapshot = .ok s) (side : Side)
    (unit : RateUnit) :
    u.rate .recent side unit = .ok (s.recent.get side unit) ∧
      u.rate .lifetime side unit = .ok (s.lifetime.get side unit) := by
  obtain ⟨-, -, hrecent, hlifetime⟩ := snapshot_eq_ok_iff.mp h
  constructor
  · rw [rate, rates, hrecent]
    rfl
  · rw [rate, rates, hlifetime]
    rfl

theorem rate_eq_error_iff {u : Usage} {span : Span} {side : Side} {unit : RateUnit}
    {reason : Abort} : u.rate span side unit = .error reason ↔ u.rates span = .error reason := by
  rw [rate]
  cases u.rates span <;> simp [Except.map]

/-- A snapshot aborts for the reason for which a rate does: if one between the last two samples
aborts, for that reason, else for the one of a rate since the start. -/
theorem snapshot_eq_error_iff {u : Usage} {reason : Abort} :
    u.snapshot = .error reason ↔
      u.rates .recent = .error reason ∨
        (∃ recent, u.rates .recent = .ok recent) ∧ u.rates .lifetime = .error reason := by
  rw [snapshot]
  cases u.rates .recent with
  | error r => simp [bind, Except.bind]
  | ok recent => cases u.rates .lifetime <;> simp [bind, Except.bind, pure, Except.pure]

/-- A snapshot is missing exactly if a rate is. -/
theorem snapshot_aborts_iff {u : Usage} :
    (∃ reason, u.snapshot = .error reason) ↔
      ∃ span side unit reason, u.rate span side unit = .error reason := by
  simp only [snapshot_eq_error_iff, rate_eq_error_iff]
  constructor
  · rintro ⟨reason, h | ⟨-, h⟩⟩
    · exact ⟨.recent, .read, .kb, reason, h⟩
    · exact ⟨.lifetime, .read, .kb, reason, h⟩
  · rintro ⟨span, -, -, reason, h⟩
    cases hrecent : u.rates .recent with
    | error r => exact ⟨r, .inl rfl⟩
    | ok recent =>
      cases span with
      | recent => rw [hrecent] at h; cases h
      | lifetime => exact ⟨reason, .inr ⟨⟨recent, rfl⟩, h⟩⟩

/-! ## Questions -/

/-- No question tells two usages apart: not the start, the window or its differences, not the rates
over a span or one of them, not a snapshot or its line; nor does it that one of them aborts. -/
structure Alike (u v : Usage) : Prop where
  sinceMs : u.sinceMs = v.sinceMs
  window : u.window = v.window
  readDelta : u.window.readDelta = v.window.readDelta
  writeDelta : u.window.writeDelta = v.window.writeDelta
  elapsed : u.window.elapsed = v.window.elapsed
  rates : ∀ span, u.rates span = v.rates span
  rate : ∀ span side unit, u.rate span side unit = v.rate span side unit
  snapshot : u.snapshot = v.snapshot
  line : u.snapshot.map Snapshot.line = v.snapshot.map Snapshot.line

/-- Two usages with the same start and the same window are alike. -/
theorem Alike.of_eq {u v : Usage} (hsince : u.sinceMs = v.sinceMs) (hwindow : u.window = v.window) :
    u.Alike v := by
  obtain ⟨sinceMs, window⟩ := u
  obtain rfl : sinceMs = v.sinceMs := hsince
  obtain rfl : window = v.window := hwindow
  constructor <;> intros <;> rfl

/-- **A usage remembers the last two readable samples.** Whatever samples a usage has taken, no
question tells it from one with the same start that has taken only the last two readable ones among
them, or all of these if there are fewer; nor from then on, if both take the same samples. A window
by itself remembers as much. Where a usage has a snapshot, each of its rates is the one of the
snapshot; where it has none, one of its rates is missing too. -/
theorem remembers_last_two (sinceMs : Int64) (samples later : List Sample) :
    ((start sinceMs).updateAll samples).Alike ((start sinceMs).updateAll (Sample.lastTwo samples)) ∧
    (((start sinceMs).updateAll samples).updateAll later).Alike
      (((start sinceMs).updateAll (Sample.lastTwo samples)).updateAll later) ∧
    Window.initial.advanceAll samples = Window.initial.advanceAll (Sample.lastTwo samples) ∧
    (∀ s, ((start sinceMs).updateAll samples).snapshot = .ok s → ∀ side unit,
      ((start sinceMs).updateAll samples).rate .recent side unit = .ok (s.recent.get side unit) ∧
      ((start sinceMs).updateAll samples).rate .lifetime side unit =
        .ok (s.lifetime.get side unit)) ∧
    ((∃ reason, ((start sinceMs).updateAll samples).snapshot = .error reason) ↔
      ∃ span side unit reason,
        ((start sinceMs).updateAll samples).rate span side unit = .error reason) := by
  refine ⟨.of_eq ?_ ?_, .of_eq ?_ ?_, ?_, fun s h => rate_of_snapshot h, snapshot_aborts_iff⟩
  · rw [updateAll_sinceMs, updateAll_sinceMs]
  · rw [updateAll_window, updateAll_window, Window.advanceAll_lastTwo]
  · rw [updateAll_sinceMs, updateAll_sinceMs, updateAll_sinceMs, updateAll_sinceMs]
  · rw [updateAll_window, updateAll_window, updateAll_window, updateAll_window,
      Window.advanceAll_lastTwo]
  · rw [Window.advanceAll_lastTwo]

/-- The first of the last two samples has one counter, so it is readable, and the other counter
overflows a difference; time runs backwards behind it, so no rate does. -/
theorem remembers_last_two_of_half_read :
    let half : Sample := ⟨8, Int64.minValue, 4⟩
    let last : Sample := ⟨6, 5, 5⟩
    let u := (start 0).updateAll [⟨9, 9, 9⟩, half, ⟨7, Int64.minValue, Int64.minValue⟩, last]
    ∃ s, u.snapshot = .ok s ∧ u.Alike ((start 0).updateAll [half, last]) ∧
      u.rate .recent .read .kb = .ok s.recent.readKb ∧
      u.window.readDelta = .error .overflow := by
  intro half last u
  obtain ⟨s, hs⟩ : ∃ s, u.snapshot = .ok s := ⟨_, rfl⟩
  obtain ⟨halike, -, -, hrates, -⟩ :=
    remembers_last_two 0 [⟨9, 9, 9⟩, half, ⟨7, Int64.minValue, Int64.minValue⟩, last] []
  have hdelta : u.window.readDelta = .error .overflow :=
    difference_of_not_isWord (a := 5) (b := Int64.minValue) (by decide)
  exact ⟨s, hs, halike, (hrates s hs .read .kb).1, hdelta⟩

end Usage

end IoWatch
