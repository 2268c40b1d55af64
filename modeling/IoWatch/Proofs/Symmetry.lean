import IoWatch.Proofs.Watching

/-!
# The two counters are symmetric

Bytes read and bytes written go the same way from the samples to the dashboard. If the two counters
of all samples change places, then so do the two halves of all that is made of them, and nothing
else changes: not which samples are readable, not what aborts, and not when a peak is renewed.

## Main definitions

* `Side.other`: the other counter
* `Sample.swap`, `Window.swap`, `Usage.swap`, `Rates.swap`, `Snapshot.swap`, `Dashboard.swap`,
  `Watch.swap`: the same with the counters exchanged
* `Dashboard.IsLevel`: both histories have the same length
* `Usage.Opposite`, `Dashboard.Opposite`: what is said of one counter is said of the other

## Main results

* `Window.swap_advance`: the step that an exchanged sample makes
* `Usage.snapshot_swap`, `Usage.rate_swap`: what a usage with exchanged counters answers
* `Dashboard.tick_swap`: a tick of a dashboard with exchanged counters
* `Watch.run_swap`: a run with exchanged samples
* `counters_are_symmetric`: all of it, from the first sample on
-/

namespace IoWatch

/-! ## Exchange -/

/-- The other counter. -/
def Side.other : Side → Side
  | .read => .write
  | .write => .read

/-- A sample with its counters exchanged. -/
def Sample.swap (x : Sample) : Sample := ⟨x.timestampMs, x.writeBytes, x.readBytes⟩

/-- A window over exchanged samples. -/
def Window.swap (w : Window) : Window := ⟨w.previous.swap, w.current.swap⟩

/-- A usage with its counters exchanged. -/
def Usage.swap (u : Usage) : Usage := ⟨u.sinceMs, u.window.swap⟩

/-- Rates of exchanged counters. -/
def Rates.swap (r : Rates) : Rates := ⟨r.writeKb, r.readKb, r.writeMb, r.readMb⟩

/-- A snapshot of exchanged counters. -/
def Snapshot.swap (s : Snapshot) : Snapshot :=
  ⟨s.sinceMs, s.window.swap, s.recent.swap, s.lifetime.swap⟩

/-- A dashboard of exchanged counters. -/
def Dashboard.swap (d : Dashboard) : Dashboard where
  pid := d.pid
  intervalMs := d.intervalMs
  readHistory := d.writeHistory
  writeHistory := d.readHistory
  readPeak := d.writePeak
  writePeak := d.readPeak
  snapshot := d.snapshot.swap

namespace Watch

/-- A dashboard and its usage with the counters exchanged. -/
def swap (w : Watch) : Watch := ⟨w.dashboard.swap, w.usage.swap⟩

/-- A step with the counters of its sample exchanged. -/
def Step.swap : Step → Step
  | .sample x => .sample x.swap
  | .tick now => .tick now

end Watch

/-! ## Samples -/

/-- The mark of a failed observation holds in both counters, so it survives the exchange. -/
@[simp] theorem Sample.isUnreadable_swap (x : Sample) : x.swap.isUnreadable = x.isUnreadable :=
  Bool.and_comm _ _

namespace Window

theorem swap_advance (w : Window) (x : Sample) : (w.advance x).swap = w.swap.advance x.swap := by
  cases h : x.isUnreadable with
  | true =>
    have h' : x.swap.isUnreadable = true := by rwa [Sample.isUnreadable_swap]
    rw [advance_of_unreadable h, advance_of_unreadable h']
  | false =>
    have h' : x.swap.isUnreadable = false := by rwa [Sample.isUnreadable_swap]
    rw [advance_of_readable h, advance_of_readable h']
    rfl

end Window

/-! ## Rates -/

/-- Two computations that abort for no other reason than overflow can change places. Where both
abort, the first one decides for which reason, but there is only one. -/
theorem OnlyOverflows.bind_comm {α β γ δ : Type} {x : Except Abort α} {y : Except Abort β}
    (hx : OnlyOverflows x) (hy : OnlyOverflows y) {f : β → α → γ} {g : α → β → δ} {φ : δ → γ}
    (h : ∀ a b, f b a = φ (g a b)) :
    (do let b ← y; let a ← x; return f b a) =
      (do let a ← x; let b ← y; return g a b : Except Abort δ).map φ := by
  cases x with
  | ok a =>
    cases y with
    | ok b => exact congrArg Except.ok (h a b)
    | error reason => rfl
  | error reason =>
    cases y with
    | ok b => rfl
    | error reason' =>
      rw [hx reason rfl, hy reason' rfl]
      rfl

namespace Rates

theorem recent_swap (w : Window) : recent w.swap = (recent w).map swap :=
  OnlyOverflows.bind_comm (.deltaRate _ _ _ _) (.deltaRate _ _ _ _) fun _ _ => rfl

theorem lifetime_swap (sinceMs : Int64) (w : Window) :
    lifetime sinceMs w.swap = (lifetime sinceMs w).map swap :=
  OnlyOverflows.bind_comm (.lifetimeRate _ _ _) (.lifetimeRate _ _ _) fun _ _ => rfl

theorem get_swap (r : Rates) (side : Side) (unit : RateUnit) :
    r.swap.get side unit = r.get side.other unit := by
  cases side <;> cases unit <;> rfl

end Rates

namespace Usage

theorem rates_swap (u : Usage) (span : Span) : u.swap.rates span = (u.rates span).map Rates.swap := by
  cases span with
  | recent => exact Rates.recent_swap u.window
  | lifetime => exact Rates.lifetime_swap u.sinceMs u.window

theorem rate_swap (u : Usage) (span : Span) (side : Side) (unit : RateUnit) :
    u.swap.rate span side unit = u.rate span side.other unit := by
  rw [rate, rate, rates_swap]
  cases u.rates span with
  | error reason => rfl
  | ok rates => exact congrArg Except.ok (rates.get_swap side unit)

theorem snapshot_swap (u : Usage) : u.swap.snapshot = u.snapshot.map Snapshot.swap := by
  rw [snapshot, snapshot, rates_swap, rates_swap]
  cases u.rates .recent with
  | error reason => rfl
  | ok recent => cases u.rates .lifetime <;> rfl

theorem swap_update (u : Usage) (x : Sample) : (u.update x).swap = u.swap.update x.swap :=
  congrArg (mk u.sinceMs) (u.window.swap_advance x)

theorem swap_updateAll (u : Usage) (samples : List Sample) :
    (u.updateAll samples).swap = u.swap.updateAll (samples.map Sample.swap) := by
  induction samples generalizing u with
  | nil => rfl
  | cons x samples ih =>
    show ((u.update x).updateAll samples).swap = _
    rw [ih, swap_update]
    rfl

/-- What is said of a counter of one usage is said of the other counter of the other one, and what
is said of neither counter is said of both usages; where one usage aborts, so does the other. -/
structure Opposite (u v : Usage) : Prop where
  sinceMs : v.sinceMs = u.sinceMs
  window : v.window = u.window.swap
  readDelta : v.window.readDelta = u.window.writeDelta
  writeDelta : v.window.writeDelta = u.window.readDelta
  elapsed : v.window.elapsed = u.window.elapsed
  rates : ∀ span, v.rates span = (u.rates span).map Rates.swap
  rate : ∀ span side unit, v.rate span side unit = u.rate span side.other unit
  snapshot : v.snapshot = u.snapshot.map Snapshot.swap

theorem opposite_swap (u : Usage) : u.Opposite u.swap where
  sinceMs := rfl
  window := rfl
  readDelta := rfl
  writeDelta := rfl
  elapsed := rfl
  rates := u.rates_swap
  rate := u.rate_swap
  snapshot := u.snapshot_swap

end Usage

/-! ## Dashboards -/

namespace Dashboard

theorem create_swap (pid : UInt32) (intervalMs : UInt64) (n : Nat) (u : Usage) (now : ClockTime) :
    create pid intervalMs n u.swap now = (create pid intervalMs n u now).map swap := by
  rw [create, create, Usage.snapshot_swap]
  cases u.snapshot <;> rfl

theorem history_swap (d : Dashboard) (side : Side) : d.swap.history side = d.history side.other := by
  cases side <;> rfl

theorem peak_swap (d : Dashboard) (side : Side) : d.swap.peak side = d.peak side.other := by
  cases side <;> rfl

/-- Both histories have the same length. A tick that finds an entry to drop in one of them finds one
in the other, too. -/
def IsLevel (d : Dashboard) : Prop := d.readHistory.length = d.writeHistory.length

theorem isLevel_of_create {pid : UInt32} {intervalMs : UInt64} {n : Nat} {u : Usage}
    {now : ClockTime} {d : Dashboard} (h : create pid intervalMs n u now = .ok d) : d.IsLevel := by
  obtain ⟨s, hs⟩ : ∃ s, u.snapshot = .ok s := by
    cases hs : u.snapshot with
    | ok s => exact ⟨s, rfl⟩
    | error reason =>
      rw [create_eq_error_iff.mpr hs] at h
      cases h
  rw [create_of_snapshot hs] at h
  cases h
  rfl

/-- The histories of a level dashboard are both empty or both not. -/
theorem IsLevel.nil_or {d : Dashboard} (h : d.IsLevel) :
    (∀ side, d.history side = []) ∨ ∀ side, d.history side ≠ [] := by
  by_cases hread : d.readHistory = []
  · have hwrite : d.writeHistory = [] := by rw [← List.length_eq_zero_iff, ← h, hread, List.length_nil]
    exact .inl fun side => by cases side <;> assumption
  · have hwrite : d.writeHistory ≠ [] := by
      rwa [← List.length_pos_iff, ← h, List.length_pos_iff]
    exact .inr fun side => by cases side <;> assumption

variable {d : Dashboard}

/-- **A tick does to either counter what it does to the other**, and it ends in the same way. -/
theorem tick_swap (hd : d.IsLevel) (u : Usage) (now : ClockTime) :
    d.swap.tick u.swap now = ((d.tick u now).1.swap, (d.tick u now).2) := by
  have hsnapshot := u.snapshot_swap
  cases hs : u.snapshot with
  | error reason =>
    rw [hs] at hsnapshot
    rw [tick_of_abort hs, tick_of_abort hsnapshot]
  | ok s =>
    rw [hs] at hsnapshot
    rcases hd.nil_or with hnil | hne
    · rw [tick_of_nil hs (hnil .read), tick_of_nil hsnapshot (hnil .write)]
      rfl
    · have hne' : ∀ side, d.swap.history side ≠ [] := by
        intro side
        rw [history_swap]
        exact hne side.other
      rw [tick_of_snapshot hs hne, tick_of_snapshot hsnapshot hne']
      rfl

theorem IsLevel.tick (hd : d.IsLevel) (u : Usage) (now : ClockTime) :
    (d.tick u now).1.IsLevel := by
  cases hs : u.snapshot with
  | error reason => rwa [tick_of_abort hs]
  | ok s =>
    rcases hd.nil_or with hnil | hne
    · rwa [tick_of_nil hs (hnil .read)]
    · rw [tick_of_snapshot hs hne]
      show (d.readHistory.tail ++ [_]).length = (d.writeHistory.tail ++ [_]).length
      rw [List.length_append, List.length_append, List.length_tail, List.length_tail, hd,
        List.length_singleton, List.length_singleton]

theorem renews_swap (hd : d.IsLevel) (u : Usage) (side : Side) :
    d.swap.Renews u.swap side ↔ d.Renews u side.other := by
  apply forall_congr'
  intro now
  rw [tick_swap hd, peak_swap]

/-- What one dashboard shows of a counter the other one shows of the other counter, and what is
shown of neither is shown by both. -/
structure Opposite (d e : Dashboard) : Prop where
  pid : e.pid = d.pid
  intervalMs : e.intervalMs = d.intervalMs
  history : ∀ side, e.history side = d.history side.other
  peak : ∀ side, e.peak side = d.peak side.other
  snapshot : e.snapshot = d.snapshot.swap
  recent : ∀ side unit, e.recent.get side unit = d.recent.get side.other unit
  lifetime : ∀ side unit, e.lifetime.get side unit = d.lifetime.get side.other unit
  totals : e.totals = d.totals.swap
  hasSample : e.hasSample = d.hasSample

theorem opposite_swap (d : Dashboard) : d.Opposite d.swap where
  pid := rfl
  intervalMs := rfl
  history := d.history_swap
  peak := d.peak_swap
  snapshot := rfl
  recent := d.recent.get_swap
  lifetime := d.lifetime.get_swap
  totals := rfl
  hasSample := rfl

end Dashboard

/-! ## Runs -/

namespace Watch

variable {w : Watch}

theorem step_swap (hw : w.dashboard.IsLevel) (step : Step) :
    w.swap.step step.swap = (w.step step).swap := by
  cases step with
  | sample x => exact congrArg (mk w.dashboard.swap) (w.usage.swap_update x).symm
  | tick now =>
    exact congrArg (fun outcome => mk outcome.1 w.usage.swap) (Dashboard.tick_swap hw w.usage now)

theorem isLevel_step (hw : w.dashboard.IsLevel) (step : Step) : (w.step step).dashboard.IsLevel := by
  cases step with
  | sample x => exact hw
  | tick now => exact hw.tick w.usage now

/-- A run with exchanged samples leaves what the run leaves, exchanged. -/
theorem run_swap (hw : w.dashboard.IsLevel) (steps : List Step) :
    w.swap.run (steps.map Step.swap) = (w.run steps).swap ∧ (w.run steps).dashboard.IsLevel := by
  induction steps generalizing w with
  | nil => exact ⟨rfl, hw⟩
  | cons step steps ih =>
    obtain ⟨hrun, hlevel⟩ := ih (w.isLevel_step hw step)
    refine ⟨?_, hlevel⟩
    show (w.swap.step step.swap).run (steps.map Step.swap) = _
    rw [step_swap hw]
    exact hrun

end Watch

/-- **The two counters are symmetric.** Take any samples, let a dashboard with histories of any
length be created when some of them have come, and let more samples come and ticks happen in any
order. Exchange the counters of all samples. The same samples are readable, and the dashboard is
created or not as before. At every point of the run the usage gives its answers with the counters
exchanged, each rate, difference and snapshot being there or missing as before; the dashboard shows
everything with the counters exchanged; and a tick ends as before, having renewed the peak of a
counter if it renewed the one of the other counter before. -/
theorem counters_are_symmetric (sinceMs : Int64) (before : List Sample) (pid : UInt32)
    (intervalMs : UInt64) (n : Nat) (now : ClockTime) :
    let u := (Usage.start sinceMs).updateAll before
    let v := (Usage.start sinceMs).updateAll (before.map Sample.swap)
    (∀ x : Sample, x.swap.isUnreadable = x.isUnreadable) ∧
    u.Opposite v ∧
    Dashboard.create pid intervalMs n v now =
      (Dashboard.create pid intervalMs n u now).map Dashboard.swap ∧
    ∀ d, Dashboard.create pid intervalMs n u now = .ok d → ∀ steps : List Watch.Step,
      let w := (Watch.mk d u).run steps
      let z := (Watch.mk d.swap v).run (steps.map Watch.Step.swap)
      w.usage.Opposite z.usage ∧ w.dashboard.Opposite z.dashboard ∧
        (∀ now, (z.dashboard.tick z.usage now).2 = (w.dashboard.tick w.usage now).2) ∧
        ∀ side, z.dashboard.Renews z.usage side ↔ w.dashboard.Renews w.usage side.other := by
  intro u v
  have hv : v = u.swap := (Usage.swap_updateAll (.start sinceMs) before).symm
  rw [hv]
  refine ⟨Sample.isUnreadable_swap, u.opposite_swap, Dashboard.create_swap .., ?_⟩
  intro d hd steps w z
  obtain ⟨hrun, hlevel⟩ := Watch.run_swap (w := ⟨d, u⟩) (Dashboard.isLevel_of_create hd) steps
  have hz : z = w.swap := hrun
  rw [hz]
  refine ⟨w.usage.opposite_swap, w.dashboard.opposite_swap, ?_, ?_⟩
  · intro now
    show (w.dashboard.swap.tick w.usage.swap now).2 = _
    rw [Dashboard.tick_swap hlevel]
  · intro side
    exact Dashboard.renews_swap hlevel w.usage side

/-- Twice as much is read as is written, until a counter that has no sensible value makes a tick
abort. With the counters exchanged that tick aborts, too, and the smaller rate is in the other
history. -/
theorem counters_are_symmetric_to_overflow :
    let before : List Sample := [⟨0, 0, 1024⟩]
    let steps : List Watch.Step := [.sample ⟨1000, 2048, 2048⟩, .tick ⟨1⟩,
      .sample ⟨2000, Int64.minValue, 4096⟩, .sample ⟨3000, 5, 4096⟩]
    let u := (Usage.start 0).updateAll before
    let v := (Usage.start 0).updateAll (before.map Sample.swap)
    let d : Dashboard := ⟨7, 1000, [0, 0], [0, 0], ⟨0, ⟨0⟩⟩, ⟨0, ⟨0⟩⟩,
      ⟨0, u.window, .ofKb 0 0, .ofKb 0 0⟩⟩
    let w := (Watch.mk d u).run steps
    let z := (Watch.mk d.swap v).run (steps.map Watch.Step.swap)
    Dashboard.create 7 1000 2 u ⟨0⟩ = .ok d ∧
      w.dashboard.writeHistory = [0, 1] ∧ z.dashboard.readHistory = [0, 1] ∧
      (w.dashboard.tick w.usage ⟨2⟩).2 = .error .overflow ∧
      (z.dashboard.tick z.usage ⟨2⟩).2 = .error .overflow := by
  intro before steps u v d w z
  have hd : Dashboard.create 7 1000 2 u ⟨0⟩ = .ok d := rfl
  obtain ⟨-, -, -, hruns⟩ := counters_are_symmetric 0 before 7 1000 2 ⟨0⟩
  have hopposite : w.dashboard.Opposite z.dashboard := (hruns d hd steps).2.1
  have htick : (z.dashboard.tick z.usage ⟨2⟩).2 = (w.dashboard.tick w.usage ⟨2⟩).2 :=
    (hruns d hd steps).2.2.1 ⟨2⟩
  have hwrite : w.dashboard.writeHistory = [0, 1] := by decide +kernel
  have husage : w.usage = ⟨0, ⟨2000, Int64.minValue, 4096⟩, ⟨3000, 5, 4096⟩⟩ := by decide +kernel
  clear_value w z
  have hsnapshot : w.usage.snapshot = .error .overflow := by
    rw [husage]
    rfl
  have hoverflow : (w.dashboard.tick w.usage ⟨2⟩).2 = .error .overflow := by
    rw [Dashboard.tick_of_abort hsnapshot]
  refine ⟨hd, hwrite, ?_, hoverflow, ?_⟩
  · exact (hopposite.history .read).trans hwrite
  · exact htick.trans hoverflow

end IoWatch
