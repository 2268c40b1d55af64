import IoWatch.Proofs.Watching
import IoWatch.Proofs.LastTwo
import Mathlib.Data.List.Forall2

/-!
# The counters are independent

The two counters share their samples, the mark of a failed one, and the snapshot that holds the
rates of both. Where no field is negative none of this carries anything from one counter to the
other: two runs that agree on the times and on one counter agree on all that is said of it.

## Main definitions

* `Sample.bytes`, `Dashboard.total`: the value of a counter, and the one that is shown
* `Sample.Same`, `Watch.Step.Same`: two samples or steps differ in the other counter at most
* `Usage.alone`: the rate of a counter, taken without the other one
* `Usage.Agree`, `Snapshot.Agree`, `Dashboard.Agree`, `Watch.Agree`: two runs agree on a counter

## Main results

* `Usage.alone_of_rates`: the rates of both counters are the ones taken without the other
* `Usage.Agree.update`, `Usage.Agree.exists_snapshots`: what a sample and a snapshot keep
* `Watch.Agree.run`: runs go on agreeing
* `counters_are_independent`: all that the two runs say of the counter
-/

namespace IoWatch

/-- The value of a counter. -/
def Sample.bytes (x : Sample) : Side → Int64
  | .read => x.readBytes
  | .write => x.writeBytes

/-- The total of a counter that is shown. -/
def Dashboard.total (d : Dashboard) : Side → Int64
  | .read => d.totals.1
  | .write => d.totals.2

theorem Dashboard.total_eq (d : Dashboard) (side : Side) :
    d.total side = d.snapshot.window.current.bytes side := by
  cases side <;> rfl

/-! ## Samples and usages -/

/-- Two samples without negative fields that have the same time and the same value of a counter. -/
structure Sample.Agree (side : Side) (x y : Sample) : Prop where
  nonneg : x.IsNonneg
  nonneg' : y.IsNonneg
  timestampMs : x.timestampMs = y.timestampMs
  bytes : x.bytes side = y.bytes side

/-- Two samples that differ in the other counter at most: both are unreadable, or they agree. -/
inductive Sample.Same (side : Side) : Sample → Sample → Prop where
  | unreadable {x y : Sample} (hx : x.isUnreadable = true) (hy : y.isUnreadable = true) :
      Same side x y
  | readable {x y : Sample} (h : x.Agree side y) : Same side x y

/-- Two usages with the same start whose windows agree on a counter. -/
structure Usage.Agree (side : Side) (u v : Usage) : Prop where
  nonneg : 0 ≤ u.sinceMs
  sinceMs : u.sinceMs = v.sinceMs
  previous : u.window.previous.Agree side v.window.previous
  current : u.window.current.Agree side v.window.current

variable {side : Side}

/-- A sample without negative fields is readable. -/
theorem Sample.IsNonneg.isUnreadable {x : Sample} (h : x.IsNonneg) : x.isUnreadable = false := by
  have hne : x.readBytes ≠ Int64.minValue := by
    intro hmin
    have hread := h.readBytes
    rw [hmin] at hread
    exact absurd hread (by decide)
  rw [Sample.isUnreadable, beq_false_of_ne hne, Bool.false_and]

theorem Sample.agree_origin : Sample.origin.Agree side Sample.origin :=
  ⟨isNonneg_origin, isNonneg_origin, rfl, rfl⟩

namespace Usage

theorem agree_start {sinceMs : Int64} (h : 0 ≤ sinceMs) :
    (start sinceMs).Agree side (start sinceMs) :=
  ⟨h, rfl, Sample.agree_origin, Sample.agree_origin⟩

variable {u v : Usage}

theorem Agree.isNonneg (h : u.Agree side v) : u.IsNonneg :=
  ⟨h.nonneg, h.previous.nonneg, h.current.nonneg⟩

theorem Agree.isNonneg' (h : u.Agree side v) : v.IsNonneg :=
  ⟨h.sinceMs ▸ h.nonneg, h.previous.nonneg', h.current.nonneg'⟩

/-- Both usages take a sample in, or neither does. -/
theorem Agree.update (h : u.Agree side v) {x y : Sample} (hxy : x.Same side y) :
    (u.update x).Agree side (v.update y) := by
  cases hxy with
  | unreadable hx hy =>
    rw [Usage.update, Usage.update, Window.advance_of_unreadable hx,
      Window.advance_of_unreadable hy]
    exact h
  | readable hxy =>
    rw [Usage.update, Usage.update, Window.advance_of_readable hxy.nonneg.isUnreadable,
      Window.advance_of_readable hxy.nonneg'.isUnreadable]
    exact ⟨h.nonneg, h.sinceMs, h.current, hxy⟩

theorem Agree.updateAll (h : u.Agree side v) {samples samples' : List Sample}
    (hsame : List.Forall₂ (Sample.Same side) samples samples') :
    (u.updateAll samples).Agree side (v.updateAll samples') := by
  induction hsame generalizing u v with
  | nil => exact h
  | cons hxy _ ih => exact ih (h.update hxy)

/-! ## Rates -/

/-- The rate of a counter in kilobytes per second, taken without the other counter. -/
def alone (u : Usage) (side : Side) : Span → Except Abort Binary64
  | .recent =>
    deltaRate u.window.previous.timestampMs u.window.current.timestampMs
      (u.window.previous.bytes side) (u.window.current.bytes side)
  | .lifetime =>
    lifetimeRate u.sinceMs u.window.current.timestampMs (u.window.current.bytes side)

/-- The rates of both counters are put together from those that are taken without the other one. -/
theorem rates_eq (u : Usage) (span : Span) :
    u.rates span = (do
      let read ← u.alone .read span
      let write ← u.alone .write span
      return .ofKb read write) := by
  cases span <;> rfl

/-- Where there are rates of both counters, each is the one that is taken without the other. -/
theorem alone_of_rates {span : Span} {rates : Rates} (h : u.rates span = .ok rates) (side : Side) :
    u.alone side span = .ok (rates.get side .kb) ∧
      rates.get side .mb = kbToMb (rates.get side .kb) := by
  rw [rates_eq] at h
  cases hread : u.alone .read span with
  | error reason =>
    rw [hread] at h
    cases h
  | ok read =>
    cases hwrite : u.alone .write span with
    | error reason =>
      rw [hread, hwrite] at h
      cases h
    | ok write =>
      rw [hread, hwrite] at h
      cases h
      cases side with
      | read => exact ⟨hread, rfl⟩
      | write => exact ⟨hwrite, rfl⟩

theorem Agree.alone_eq (h : u.Agree side v) (span : Span) : u.alone side span = v.alone side span := by
  cases span with
  | recent =>
    rw [alone, alone, h.previous.timestampMs, h.current.timestampMs, h.previous.bytes,
      h.current.bytes]
  | lifetime => rw [alone, alone, h.sinceMs, h.current.timestampMs, h.current.bytes]

theorem Agree.get_eq (h : u.Agree side v) (span : Span) {rates rates' : Rates}
    (hu : u.rates span = .ok rates) (hv : v.rates span = .ok rates') (unit : RateUnit) :
    rates.get side unit = rates'.get side unit := by
  obtain ⟨hkb, hmb⟩ := alone_of_rates hu side
  obtain ⟨hkb', hmb'⟩ := alone_of_rates hv side
  have heq : rates.get side .kb = rates'.get side .kb := by
    apply Except.ok.inj
    rw [← hkb, ← hkb', h.alone_eq]
  cases unit with
  | kb => exact heq
  | mb => rw [hmb, hmb', heq]

end Usage

/-! ## Snapshots -/

/-- Two snapshots that say the same of a counter. -/
structure Snapshot.Agree (side : Side) (s t : Snapshot) : Prop where
  recent : ∀ unit, s.recent.get side unit = t.recent.get side unit
  lifetime : ∀ unit, s.lifetime.get side unit = t.lifetime.get side unit
  bytes : s.window.current.bytes side = t.window.current.bytes side

namespace Usage

variable {u v : Usage}

/-- Usages that agree on a counter both have a snapshot, whatever the other counter does, and the
snapshots say the same of it. -/
theorem Agree.exists_snapshots (h : u.Agree side v) :
    ∃ s t, u.snapshot = .ok s ∧ v.snapshot = .ok t ∧ s.Agree side t := by
  obtain ⟨s, hs⟩ := snapshot_of_nonneg h.isNonneg
  obtain ⟨t, ht⟩ := snapshot_of_nonneg h.isNonneg'
  obtain ⟨-, hwindow, hrecent, hlifetime⟩ := snapshot_eq_ok_iff.mp hs
  obtain ⟨-, hwindow', hrecent', hlifetime'⟩ := snapshot_eq_ok_iff.mp ht
  refine ⟨s, t, hs, ht, ?_, ?_, ?_⟩
  · exact h.get_eq .recent hrecent hrecent'
  · exact h.get_eq .lifetime hlifetime hlifetime'
  · rw [hwindow, hwindow', h.current.bytes]

/-- Asked for a rate of the counter, the usages give the same answer. -/
theorem Agree.exists_rate (h : u.Agree side v) (span : Span) (unit : RateUnit) :
    ∃ rate, u.rate span side unit = .ok rate ∧ v.rate span side unit = .ok rate := by
  obtain ⟨s, t, hs, ht, hagree⟩ := h.exists_snapshots
  obtain ⟨hrecent, hlifetime⟩ := rate_of_snapshot hs side unit
  obtain ⟨hrecent', hlifetime'⟩ := rate_of_snapshot ht side unit
  cases span with
  | recent => exact ⟨_, hrecent, hagree.recent unit ▸ hrecent'⟩
  | lifetime => exact ⟨_, hlifetime, hagree.lifetime unit ▸ hlifetime'⟩

end Usage

/-! ## Dashboards -/

/-- Two dashboards that show the same of a counter. -/
structure Dashboard.Agree (side : Side) (d e : Dashboard) : Prop where
  history : d.history side = e.history side
  peak : d.peak side = e.peak side
  recent : ∀ unit, d.recent.get side unit = e.recent.get side unit
  lifetime : ∀ unit, d.lifetime.get side unit = e.lifetime.get side unit
  total : d.total side = e.total side

theorem Dashboard.Agree.of_snapshots {d e : Dashboard} (hhistory : d.history side = e.history side)
    (hpeak : d.peak side = e.peak side) (hsnapshot : d.snapshot.Agree side e.snapshot) :
    d.Agree side e where
  history := hhistory
  peak := hpeak
  recent := hsnapshot.recent
  lifetime := hsnapshot.lifetime
  total := by rw [total_eq, total_eq, hsnapshot.bytes]

/-- Two snapshots that say the same of a counter are shown in the same way. -/
theorem Dashboard.Agree.showing {d e : Dashboard} (h : d.Agree side e) {s t : Snapshot}
    (hst : s.Agree side t) (now : ClockTime) :
    (d.showing s now).Agree side (e.showing t now) := by
  apply of_snapshots
  · rw [history_showing, history_showing, h.history, hst.recent]
  · rw [peak_showing, peak_showing, h.peak, hst.recent]
  · exact hst

/-! ## Runs -/

/-- Two steps that differ in the other counter of a sample at most. -/
inductive Watch.Step.Same (side : Side) : Step → Step → Prop where
  | sample {x y : Sample} (h : x.Same side y) : Same side (.sample x) (.sample y)
  | tick (now : ClockTime) : Same side (.tick now) (.tick now)

namespace Watch

/-- Two dashboards that show the same of a counter, beside two usages that agree on it. All
histories have entries, so that no tick aborts. -/
structure Agree (side : Side) (w z : Watch) : Prop where
  usage : w.usage.Agree side z.usage
  dashboard : w.dashboard.Agree side z.dashboard
  histories : ∀ side, w.dashboard.history side ≠ []
  histories' : ∀ side, z.dashboard.history side ≠ []

namespace Agree

variable {w z : Watch}

/-- Both dashboards complete a tick, and show the same of the counter again. -/
theorem exists_ticks (h : w.Agree side z) (now : ClockTime) :
    ∃ d e : Dashboard, w.dashboard.tick w.usage now = (d, .ok ()) ∧
      z.dashboard.tick z.usage now = (e, .ok ()) ∧ (Watch.mk d w.usage).Agree side ⟨e, z.usage⟩ := by
  obtain ⟨s, t, hs, ht, hst⟩ := h.usage.exists_snapshots
  refine ⟨_, _, Dashboard.tick_of_snapshot hs h.histories now,
    Dashboard.tick_of_snapshot ht h.histories' now, h.usage, h.dashboard.showing hst now, ?_, ?_⟩
  · exact Dashboard.history_showing_ne_nil now
  · exact Dashboard.history_showing_ne_nil now

theorem step (h : w.Agree side z) {step step' : Step} (hsame : step.Same side step') :
    (w.step step).Agree side (z.step step') := by
  cases hsame with
  | sample hxy => exact ⟨h.usage.update hxy, h.dashboard, h.histories, h.histories'⟩
  | tick now =>
    obtain ⟨d, e, hd, he, hagree⟩ := h.exists_ticks now
    rw [Watch.step, Watch.step, hd, he]
    exact hagree

/-- Runs go on agreeing on a counter. -/
theorem run (h : w.Agree side z) {steps steps' : List Step}
    (hsame : List.Forall₂ (Step.Same side) steps steps') :
    (w.run steps).Agree side (z.run steps') := by
  induction hsame generalizing w z with
  | nil => exact h
  | cons hstep _ ih => exact ih (h.step hstep)

theorem renews_iff (h : w.Agree side z) :
    w.dashboard.Renews w.usage side ↔ z.dashboard.Renews z.usage side := by
  apply forall_congr'
  intro now
  obtain ⟨d, e, hd, he, hagree⟩ := h.exists_ticks now
  rw [hd, he, show d.peak side = e.peak side from hagree.dashboard.peak]

end Agree

end Watch

/-- **The counters are independent.** Let two usages start at the same time, which is not negative,
and take samples at the same times. Where one of them takes a sample without sensible counters, so
does the other; all other samples have no negative field, and have the same value of one counter in
both runs. The other counter may be anything. Then a dashboard with histories of at least one entry
is created beside each usage, and at every point of the two runs all that is said of the counter is
the same: the rates over both spans in both units, as the usage and its snapshot give them and as
the dashboard shows them, the history, the peak and the total. No tick is aborted, and the peak of
the counter is renewed in both runs or in neither. -/
theorem counters_are_independent (side : Side) {sinceMs : Int64} (hsince : 0 ≤ sinceMs)
    {before before' : List Sample} (hbefore : List.Forall₂ (Sample.Same side) before before')
    (pid : UInt32) (intervalMs : UInt64) {n : Nat} (hn : 1 ≤ n) (now : ClockTime) :
    let u := (Usage.start sinceMs).updateAll before
    let v := (Usage.start sinceMs).updateAll before'
    ∃ d e, Dashboard.create pid intervalMs n u now = .ok d ∧
      Dashboard.create pid intervalMs n v now = .ok e ∧
      ∀ steps steps', List.Forall₂ (Watch.Step.Same side) steps steps' →
        let w := (Watch.mk d u).run steps
        let z := (Watch.mk e v).run steps'
        (∀ span unit, ∃ rate,
          w.usage.rate span side unit = .ok rate ∧ z.usage.rate span side unit = .ok rate) ∧
        (∃ s t, w.usage.snapshot = .ok s ∧ z.usage.snapshot = .ok t ∧ s.Agree side t) ∧
        w.dashboard.Agree side z.dashboard ∧
        (∀ now, (w.dashboard.tick w.usage now).2 = .ok () ∧
          (z.dashboard.tick z.usage now).2 = .ok ()) ∧
        (w.dashboard.Renews w.usage side ↔ z.dashboard.Renews z.usage side) := by
  intro u v
  have husage : u.Agree side v := (Usage.agree_start hsince).updateAll hbefore
  obtain ⟨s, t, hs, ht, hst⟩ := husage.exists_snapshots
  refine ⟨_, _, Dashboard.create_of_snapshot hs pid intervalMs n now,
    Dashboard.create_of_snapshot ht pid intervalMs n now, ?_⟩
  intro steps steps' hsame w z
  have hzeros : List.replicate n (0 : Binary64) ≠ [] := by
    rw [ne_eq, List.replicate_eq_nil_iff]
    omega
  have hagree : w.Agree side z := by
    refine Watch.Agree.run ⟨husage, .of_snapshots ?_ ?_ hst, ?_, ?_⟩ hsame
    · cases side <;> rfl
    · cases side <;> rfl
    · exact fun side => by cases side <;> exact hzeros
    · exact fun side => by cases side <;> exact hzeros
  refine ⟨hagree.usage.exists_rate, hagree.usage.exists_snapshots, hagree.dashboard, ?_,
    hagree.renews_iff⟩
  intro now
  obtain ⟨d, e, hd, he, -⟩ := hagree.exists_ticks now
  rw [hd, he]
  exact ⟨rfl, rfl⟩

/-- In one run as much is written as there can be, in the other one nothing. Two kilobytes are read
in a second, and then a sample is marked as failed. -/
theorem counters_are_independent_of_extremes :
    let before : List Sample := [⟨0, 0, 9223372036854775807⟩]
    let before' : List Sample := [⟨0, 0, 4096⟩]
    let steps : List Watch.Step := [.sample ⟨1000, 2048, 0⟩, .tick ⟨1⟩, .sample .unreadable]
    let steps' : List Watch.Step := [.sample ⟨1000, 2048, 9223372036854775807⟩, .tick ⟨1⟩,
      .sample ⟨7, Int64.minValue, Int64.minValue⟩]
    let u := (Usage.start 0).updateAll before
    let v := (Usage.start 0).updateAll before'
    let d : Dashboard := ⟨7, 1000, [0, 0], [0, 0], ⟨0, ⟨0⟩⟩, ⟨0, ⟨0⟩⟩,
      ⟨0, u.window, .ofKb 0 0, .ofKb 0 0⟩⟩
    let e : Dashboard := { d with snapshot := ⟨0, v.window, .ofKb 0 0, .ofKb 0 0⟩ }
    let w := (Watch.mk d u).run steps
    let z := (Watch.mk e v).run steps'
    List.Forall₂ (Sample.Same .read) before before' ∧
      List.Forall₂ (Watch.Step.Same .read) steps steps' ∧
      Dashboard.create 7 1000 2 u ⟨0⟩ = .ok d ∧ Dashboard.create 7 1000 2 v ⟨0⟩ = .ok e ∧
      w.dashboard.readHistory = [0, 2] ∧ z.dashboard.readHistory = [0, 2] ∧
      w.dashboard.writeHistory ≠ z.dashboard.writeHistory := by
  intro before before' steps steps' u v d e w z
  have hbefore : List.Forall₂ (Sample.Same .read) before before' :=
    .cons (.readable ⟨⟨by decide, by decide, by decide⟩, ⟨by decide, by decide, by decide⟩, rfl, rfl⟩)
      .nil
  have hsteps : List.Forall₂ (Watch.Step.Same .read) steps steps' := by
    refine .cons (.sample (.readable ⟨?_, ?_, rfl, rfl⟩)) (.cons (.tick ⟨1⟩) (.cons (.sample ?_) .nil))
    · exact ⟨by decide, by decide, by decide⟩
    · exact ⟨by decide, by decide, by decide⟩
    · exact .unreadable (by decide) (by decide)
  have hd : Dashboard.create 7 1000 2 u ⟨0⟩ = .ok d := rfl
  have he : Dashboard.create 7 1000 2 v ⟨0⟩ = .ok e := rfl
  obtain ⟨d', e', hd', he', hruns⟩ :=
    counters_are_independent .read (show (0 : Int64) ≤ 0 by decide) hbefore 7 1000
      (show 1 ≤ 2 by decide) ⟨0⟩
  obtain rfl : d' = d := Except.ok.inj (hd'.symm.trans hd)
  obtain rfl : e' = e := Except.ok.inj (he'.symm.trans he)
  have hagree : w.dashboard.Agree .read z.dashboard := (hruns steps steps' hsteps).2.2.1
  have hread : w.dashboard.readHistory = [0, 2] := by decide +kernel
  have hwrite : w.dashboard.writeHistory ≠ z.dashboard.writeHistory := by decide +kernel
  clear_value w z
  exact ⟨hbefore, hsteps, hd, he, hread, hagree.history.symm.trans hread, hwrite⟩

end IoWatch
