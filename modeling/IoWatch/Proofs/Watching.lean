import IoWatch.Dashboard.State
import IoWatch.Proofs.Overflow

/-!
# A dashboard beside a usage

Samples come into a usage, and a dashboard beside it ticks, in any order. Of all that happens to the
usage a dashboard sees one glance for each of its ticks.

## Main definitions

* `Glance`, `Dashboard.after`: what a tick sees, and a dashboard after a list of ticks
* `Dashboard.history`, `Dashboard.peak`: the history and the peak of a counter
* `Dashboard.Renews`: a tick sets a peak anew
* `Dashboard.showing`: a dashboard after a tick that has seen a snapshot
* `Watch`, `Watch.Step`, `Watch.run`: a dashboard beside a usage, and what happens to the two
* `Usage.glances`, `Watch.samples`: what the ticks of a run see, and what the usage takes
* `Watch.Completes`: no tick of a run aborts

## Main results

* `Dashboard.create_of_snapshot`, `Dashboard.create_eq_error_iff`: when there is a dashboard
* `Dashboard.eq_of_create`: which one it is
* `Dashboard.tick_of_snapshot`, `Dashboard.tick_of_nil`, `Dashboard.tick_of_abort`: the ticks that
  complete, those that have no entry to drop, and those that see no snapshot
* `Watch.run_dashboard`: a run leaves the dashboard that its glances leave
* `Watch.completes_of_snapshots`: a run completes if every glance has a snapshot
-/

namespace IoWatch

/-! ## Ticks -/

namespace Dashboard

variable {d : Dashboard} {u : Usage} {s : Snapshot}

/-- A usage without a snapshot has no dashboard, for the same reason. -/
theorem create_eq_error_iff {pid : UInt32} {intervalMs : UInt64} {n : Nat} {now : ClockTime}
    {reason : Abort} :
    create pid intervalMs n u now = .error reason ↔ u.snapshot = .error reason := by
  cases h : u.snapshot <;> simp [create, h, bind, Except.bind, pure, Except.pure]

/-- Every other usage has one, with histories of zeros. -/
theorem create_of_snapshot (hs : u.snapshot = .ok s) (pid : UInt32) (intervalMs : UInt64) (n : Nat)
    (now : ClockTime) :
    create pid intervalMs n u now =
      .ok ⟨pid, intervalMs, .replicate n 0, .replicate n 0, ⟨0, now⟩, ⟨0, now⟩, s⟩ := by
  simp only [create, hs]
  rfl

/-- The history of a counter. -/
def history (d : Dashboard) : Side → List Binary64
  | .read => d.readHistory
  | .write => d.writeHistory

/-- A dashboard after a tick that has seen a snapshot. -/
def showing (d : Dashboard) (s : Snapshot) (now : ClockTime) : Dashboard :=
  { d with
    snapshot := s
    readHistory := d.readHistory.tail ++ [s.recent.readKb]
    writeHistory := d.writeHistory.tail ++ [s.recent.writeKb]
    readPeak := d.readPeak.offer s.recent.readKb now
    writePeak := d.writePeak.offer s.recent.writeKb now }

theorem history_showing (now : ClockTime) (side : Side) :
    (d.showing s now).history side = (d.history side).tail ++ [s.recent.get side .kb] := by
  cases side <;> rfl

theorem history_showing_ne_nil (now : ClockTime) (side : Side) :
    (d.showing s now).history side ≠ [] := by
  rw [history_showing]
  exact List.append_ne_nil_of_right_ne_nil _ (List.cons_ne_nil _ _)

/-- The peak of a counter. -/
def peak (d : Dashboard) : Side → Peak
  | .read => d.readPeak
  | .write => d.writePeak

theorem peak_showing (now : ClockTime) (side : Side) :
    (d.showing s now).peak side = (d.peak side).offer (s.recent.get side .kb) now := by
  cases side <;> rfl

section Created

variable {pid : UInt32} {intervalMs : UInt64} {n : Nat} {now : ClockTime}

/-- A dashboard that has been created is that one. -/
theorem eq_of_create (h : create pid intervalMs n u now = .ok d) :
    ∃ s, u.snapshot = .ok s ∧
      d = ⟨pid, intervalMs, .replicate n 0, .replicate n 0, ⟨0, now⟩, ⟨0, now⟩, s⟩ := by
  cases hs : u.snapshot with
  | error reason =>
    rw [create_eq_error_iff.mpr hs] at h
    cases h
  | ok s =>
    rw [create_of_snapshot hs] at h
    exact ⟨s, rfl, (Except.ok.inj h).symm⟩

theorem history_of_create (h : create pid intervalMs n u now = .ok d) (side : Side) :
    d.history side = .replicate n 0 := by
  obtain ⟨s, -, rfl⟩ := eq_of_create h
  cases side <;> rfl

/-- Histories of at least one entry have an entry to drop. -/
theorem history_ne_nil_of_create (h : create pid intervalMs n u now = .ok d) (hn : 1 ≤ n)
    (side : Side) : d.history side ≠ [] := by
  rw [history_of_create h, ne_eq, List.replicate_eq_nil_iff]
  omega

theorem peak_of_create (h : create pid intervalMs n u now = .ok d) (side : Side) :
    d.peak side = ⟨0, now⟩ := by
  obtain ⟨s, -, rfl⟩ := eq_of_create h
  cases side <;> rfl

end Created

/-- A tick that sees the usage sets the peak of a counter anew: whatever the time of day is, the
peak has it. -/
def Renews (d : Dashboard) (u : Usage) (side : Side) : Prop :=
  ∀ now, ((d.tick u now).1.peak side).seenAt = now

theorem roll_of_ne_nil {history : List Binary64} (h : history ≠ []) (kb : Binary64) :
    roll history kb = .ok (history.tail ++ [kb]) := by
  cases history with
  | nil => exact absurd rfl h
  | cons oldest rest => rfl

/-- A tick completes if it sees a snapshot and both histories have an entry to drop. -/
theorem tick_of_snapshot (hs : u.snapshot = .ok s) (hd : ∀ side, d.history side ≠ [])
    (now : ClockTime) : d.tick u now = (d.showing s now, .ok ()) := by
  have hread := roll_of_ne_nil (hd .read) s.recent.readKb
  have hwrite := roll_of_ne_nil (hd .write) s.recent.writeKb
  simp only [history] at hread hwrite
  simp only [tick, hs, hread, hwrite]
  rfl

/-- A tick that has no entry to drop aborts when it has replaced the snapshot. -/
theorem tick_of_nil (hs : u.snapshot = .ok s) (hd : d.readHistory = []) (now : ClockTime) :
    d.tick u now = ({ d with snapshot := s }, .error .emptyHistory) := by
  simp only [tick, hs, hd, roll]

/-- A tick that sees no snapshot changes nothing. -/
theorem tick_of_abort {reason : Abort} (h : u.snapshot = .error reason) (now : ClockTime) :
    d.tick u now = (d, .error reason) := by
  simp only [tick, h]

end Dashboard

/-- What a tick sees. -/
structure Glance where
  usage : Usage
  /-- The time of day. -/
  now : ClockTime
  deriving DecidableEq

/-- A glance has a snapshot to show. -/
def Glance.HasSnapshot (g : Glance) : Prop := ∃ s, g.usage.snapshot = .ok s

namespace Dashboard

/-- A dashboard after a list of ticks. -/
def after (d : Dashboard) (glances : List Glance) : Dashboard :=
  glances.foldl (fun d g => (d.tick g.usage g.now).1) d

@[simp] theorem after_nil (d : Dashboard) : d.after [] = d := rfl

@[simp] theorem after_cons (d : Dashboard) (g : Glance) (glances : List Glance) :
    d.after (g :: glances) = (d.tick g.usage g.now).1.after glances := rfl

theorem after_append (d : Dashboard) (earlier later : List Glance) :
    d.after (earlier ++ later) = (d.after earlier).after later := List.foldl_append

/-- Ticks that see snapshots keep the lengths of the histories. -/
theorem length_history_after {d : Dashboard} {glances : List Glance}
    (hg : ∀ g ∈ glances, g.HasSnapshot) (hd : ∀ side, d.history side ≠ []) (side : Side) :
    ((d.after glances).history side).length = (d.history side).length := by
  induction glances generalizing d with
  | nil => rfl
  | cons g glances ih =>
    obtain ⟨⟨s, hs⟩, hg⟩ := List.forall_mem_cons.mp hg
    have hlength : ∀ side,
        ((d.showing s g.now).history side).length = (d.history side).length := by
      intro side
      have hpos := List.length_pos_iff.mpr (hd side)
      rw [history_showing, List.length_append, List.length_tail, List.length_singleton]
      omega
    rw [after_cons, tick_of_snapshot hs hd, ih hg (history_showing_ne_nil g.now), hlength side]

theorem history_after_ne_nil {d : Dashboard} {glances : List Glance}
    (hg : ∀ g ∈ glances, g.HasSnapshot) (hd : ∀ side, d.history side ≠ []) (side : Side) :
    (d.after glances).history side ≠ [] := by
  rw [← List.length_pos_iff, length_history_after hg hd side]
  exact List.length_pos_iff.mpr (hd side)

end Dashboard

/-! ## Samples and ticks in any order -/

/-- A dashboard beside the usage that it shows. -/
structure Watch where
  dashboard : Dashboard
  usage : Usage
  deriving DecidableEq

namespace Watch

/-- What can happen to a usage and the dashboard beside it. -/
inductive Step where
  /-- The usage takes a sample. -/
  | sample (x : Sample)
  /-- The dashboard ticks, at a time of day. -/
  | tick (now : ClockTime)
  deriving DecidableEq

/-- What a step leaves. -/
def step (w : Watch) : Step → Watch
  | .sample x => { w with usage := w.usage.update x }
  | .tick now => { w with dashboard := (w.dashboard.tick w.usage now).1 }

/-- What a list of steps leaves. -/
def run (w : Watch) (steps : List Step) : Watch := steps.foldl step w

/-- The samples that the usage takes. -/
def samples : List Step → List Sample
  | [] => []
  | .sample x :: steps => x :: samples steps
  | .tick _ :: steps => samples steps

end Watch

/-- What the ticks of a run see, from a usage on. -/
def Usage.glances (u : Usage) : List Watch.Step → List Glance
  | [] => []
  | .sample x :: steps => (u.update x).glances steps
  | .tick now :: steps => ⟨u, now⟩ :: u.glances steps

namespace Watch

@[simp] theorem samples_append (earlier later : List Step) :
    samples (earlier ++ later) = samples earlier ++ samples later := by
  induction earlier with
  | nil => rfl
  | cons step earlier ih => cases step <;> simp [samples, ih]

@[simp] theorem samples_map_sample (xs : List Sample) : samples (xs.map .sample) = xs := by
  induction xs with
  | nil => rfl
  | cons x xs ih => rw [List.map_cons, samples, ih]

end Watch

namespace Usage

open Watch (samples)

theorem updateAll_append (u : Usage) (earlier later : List Sample) :
    u.updateAll (earlier ++ later) = (u.updateAll earlier).updateAll later := List.foldl_append

theorem glances_append (u : Usage) (earlier later : List Watch.Step) :
    u.glances (earlier ++ later) =
      u.glances earlier ++ (u.updateAll (samples earlier)).glances later := by
  induction earlier generalizing u with
  | nil => rfl
  | cons step earlier ih =>
    cases step with
    | sample x => exact ih (u.update x)
    | tick now => exact congrArg (⟨u, now⟩ :: ·) (ih u)

@[simp] theorem glances_map_sample (u : Usage) (xs : List Sample) :
    u.glances (xs.map .sample) = [] := by
  induction xs generalizing u with
  | nil => rfl
  | cons x xs ih => exact ih (u.update x)

/-- A tick sees the usage with all samples that came before it. -/
theorem exists_of_mem_glances {u : Usage} {steps : List Watch.Step} {g : Glance}
    (h : g ∈ u.glances steps) :
    ∃ earlier later, steps = earlier ++ .tick g.now :: later ∧
      g.usage = u.updateAll (samples earlier) := by
  induction steps generalizing u with
  | nil => cases h
  | cons step steps ih =>
    cases step with
    | sample x =>
      obtain ⟨earlier, later, rfl, hg⟩ := ih h
      exact ⟨.sample x :: earlier, later, rfl, hg⟩
    | tick now =>
      rcases List.mem_cons.mp h with rfl | h
      · exact ⟨[], steps, rfl, rfl⟩
      · obtain ⟨earlier, later, rfl, hg⟩ := ih h
        exact ⟨.tick now :: earlier, later, rfl, hg⟩

end Usage

namespace Watch

variable (w : Watch)

theorem run_usage (steps : List Step) :
    (w.run steps).usage = w.usage.updateAll (samples steps) := by
  induction steps generalizing w with
  | nil => rfl
  | cons step steps ih =>
    cases step with
    | sample x => exact ih (w.step (.sample x))
    | tick now => exact ih (w.step (.tick now))

/-- A run leaves the dashboard that its glances leave; nothing else of the usage is seen. -/
theorem run_dashboard (steps : List Step) :
    (w.run steps).dashboard = w.dashboard.after (w.usage.glances steps) := by
  induction steps generalizing w with
  | nil => rfl
  | cons step steps ih =>
    cases step with
    | sample x => exact ih (w.step (.sample x))
    | tick now => exact ih (w.step (.tick now))

/-- No tick of a run aborts. -/
def Completes (steps : List Step) : Prop :=
  ∀ earlier now later, steps = earlier ++ .tick now :: later →
    ((w.run earlier).dashboard.tick (w.run earlier).usage now).2 = .ok ()

/-- A run completes if both histories have entries and every glance has a snapshot. -/
theorem completes_of_snapshots {w : Watch} {steps : List Step}
    (hd : ∀ side, w.dashboard.history side ≠ [])
    (hg : ∀ g ∈ w.usage.glances steps, g.HasSnapshot) : w.Completes steps := by
  rintro earlier now later rfl
  rw [Usage.glances_append, List.forall_mem_append] at hg
  obtain ⟨hearlier, hlater⟩ := hg
  obtain ⟨s, hs⟩ := hlater _ List.mem_cons_self
  rw [run_dashboard, run_usage,
    Dashboard.tick_of_snapshot hs (Dashboard.history_after_ne_nil hearlier hd)]

end Watch

end IoWatch
