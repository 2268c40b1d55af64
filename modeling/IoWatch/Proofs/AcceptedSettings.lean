import IoWatch.Proofs.Layering
import IoWatch.Proofs.Step
import IoWatch.Proofs.Watching

/-!
# Accepted settings

Settings come from a document or from a command line, and both check them. What is accepted serves
the rest of the monitor: a scheduler with their interval can be started as far as the interval goes,
and a dashboard with their history has an entry to drop at every tick.

## Main definitions

* `Settings.Accepted`: the settings that a document or a command line can have

## Main results

* `Settings.Accepted.isValid`: accepted settings pass every check
* `Scheduler.start_eq_zeroInterval_iff`: when a start is refused for its interval
* `Scheduler.run_defaultIntervalMs`: no script changes the interval that a scheduler was created with
* `Watch.completes_of_nonneg`: no tick beside samples that are not negative aborts
* `accepted_settings_never_fail`: what accepted settings can be relied on for
-/

namespace IoWatch

/-! ## Settings -/

namespace Settings

/-- Settings of some document, or of some command line and some files. -/
inductive Accepted (s : Settings) : Prop
  | text {text : List Char} (h : ofText text = .ok s)
  | flags {read : Path → Except Fault (List Char)} {f : Flags} (h : ofFlags read f = .ok s)

variable {s : Settings}

/-- The last thing done to accepted settings was to check them. -/
theorem Accepted.isValid (h : s.Accepted) : s.IsValid := by
  cases h with
  | text h =>
    obtain ⟨g, -, hvalid, rfl⟩ := ofText_eq_ok_iff.mp h
    exact hvalid
  | flags h =>
    obtain ⟨below, -, h⟩ := bind_eq_ok_iff.mp h
    obtain ⟨hvalid, rfl⟩ := checked_eq_ok_iff.mp h
    exact hvalid

theorem one_le_historyLength (s : Settings) : 1 ≤ s.historyLength := Nat.le_max_left _ _

theorem historyLength_le (s : Settings) : s.historyLength ≤ 10000 := by
  apply Nat.max_le.mpr
  exact ⟨by decide, Nat.min_le_right _ _⟩

end Settings

/-! ## Schedulers -/

namespace Scheduler

variable {s : Scheduler}

/-- A start is refused for its interval only if that is zero. -/
theorem start_eq_zeroInterval_iff {intervalMs : Option UInt64} {spawned : Except Fault Unit} :
    (s.start intervalMs spawned).2.2 = .error .zeroInterval ↔
      intervalMs.getD s.defaultIntervalMs = 0 := by
  rw [start, startWith]
  split
  · simp_all
  · apply iff_of_false
    · cases s.lifecycle <;> cases spawned <;> simp [employ]
    · assumption

theorem step_defaultIntervalMs (s : Scheduler) (step : Step) :
    (s.step step).1.defaultIntervalMs = s.defaultIntervalMs := by
  cases hd : s.delivery? step with
  | none =>
    obtain ⟨⟨l, hl⟩, -⟩ := s.step_of_no_delivery step hd
    rw [hl]
  | some d =>
    obtain ⟨w, source, -, -, -, hstep⟩ := s.step_of_delivery step hd
    rw [hstep]

theorem run_defaultIntervalMs (s : Scheduler) (steps : List Step) :
    (s.run steps).1.defaultIntervalMs = s.defaultIntervalMs := by
  induction steps generalizing s with
  | nil => rfl
  | cons step steps ih =>
    show ((s.step step).1.run steps).1.defaultIntervalMs = s.defaultIntervalMs
    rw [ih, step_defaultIntervalMs]

/-- A start of a scheduler that nothing was done with fails only if there is no new worker. -/
theorem start_create {intervalMs : UInt64} (h : intervalMs ≠ 0) (usage : Usage)
    (publishers : List Publisher) (spawned : Except Fault Unit) :
    ((create intervalMs usage publishers).start none spawned).2.2 = spawned.mapError .spawn := by
  rw [start, startWith, create, Option.getD_none, if_neg h]
  cases spawned <;> rfl

end Scheduler

/-! ## Dashboards -/

/-- Beside samples that are not negative every tick sees a snapshot. -/
theorem Usage.hasSnapshot_of_mem_glances {u : Usage} (hu : u.IsNonneg) {steps : List Watch.Step}
    (hsteps : ∀ x ∈ Watch.samples steps, x.isUnreadable = false → x.IsNonneg) {g : Glance}
    (hg : g ∈ u.glances steps) : g.HasSnapshot := by
  obtain ⟨earlier, later, rfl, hseen⟩ := exists_of_mem_glances hg
  rw [Watch.samples_append, List.forall_mem_append] at hsteps
  have hnonneg : g.usage.IsNonneg := by
    rw [hseen]
    exact hu.updateAll hsteps.1
  exact snapshot_of_nonneg hnonneg

/-- No tick beside such samples aborts, if the histories have entries to start with. -/
theorem Watch.completes_of_nonneg {u : Usage} (hu : u.IsNonneg) {steps : List Watch.Step}
    (hsteps : ∀ x ∈ Watch.samples steps, x.isUnreadable = false → x.IsNonneg) (pid : UInt32)
    (intervalMs : UInt64) {n : Nat} (hn : 1 ≤ n) (now : ClockTime) :
    ∃ d, Dashboard.create pid intervalMs n u now = .ok d ∧ (Watch.mk d u).Completes steps := by
  obtain ⟨s, hs⟩ := Usage.snapshot_of_nonneg hu
  refine ⟨_, Dashboard.create_of_snapshot hs pid intervalMs n now, ?_⟩
  apply Watch.completes_of_snapshots
  · intro side
    have hzeros : List.replicate n (0 : Binary64) ≠ [] := by
      rw [ne_eq, List.replicate_eq_nil_iff]
      omega
    cases side <;> exact hzeros
  · intro g hg
    exact Usage.hasSnapshot_of_mem_glances hu hsteps hg

/-! ## What accepted settings serve for -/

/-- A scheduler with the interval of accepted settings is never refused a start for it, whatever was
done with it before; at first only the want of a worker refuses it. Their history has between one
and 10000 entries. A dashboard with that history, made beside a usage that starts and takes samples
without a negative field, is there and completes every tick, whatever samples of that kind come in
between. -/
theorem accepted_settings_never_fail {s : Settings} (h : s.Accepted) :
    (∀ usage publishers spawned,
      ((Scheduler.create s.intervalMs usage publishers).start none spawned).2.2 =
        spawned.mapError .spawn ∧
      ∀ steps, (((Scheduler.create s.intervalMs usage publishers).run steps).1.start
        none spawned).2.2 ≠ .error .zeroInterval) ∧
    (1 ≤ s.historyLength ∧ s.historyLength ≤ 10000) ∧
    ∀ (sinceMs : Int64) (before : List Sample) (steps : List Watch.Step), 0 ≤ sinceMs →
      (∀ x ∈ before ++ Watch.samples steps, x.isUnreadable = false → x.IsNonneg) →
      ∀ pid intervalMs now,
        let u := (Usage.start sinceMs).updateAll before
        ∃ d, Dashboard.create pid intervalMs s.historyLength u now = .ok d ∧
          (Watch.mk d u).Completes steps := by
  have hinterval := h.isValid.intervalMs
  refine ⟨?_, ⟨s.one_le_historyLength, s.historyLength_le⟩, ?_⟩
  · intro usage publishers spawned
    refine ⟨Scheduler.start_create hinterval usage publishers spawned, ?_⟩
    intro steps
    rw [ne_eq, Scheduler.start_eq_zeroInterval_iff, Scheduler.run_defaultIntervalMs]
    exact hinterval
  · intro sinceMs before steps hsince hsamples pid intervalMs now u
    rw [List.forall_mem_append] at hsamples
    obtain ⟨hbefore, hsteps⟩ := hsamples
    have hu : u.IsNonneg := (Usage.isNonneg_start hsince).updateAll hbefore
    exact Watch.completes_of_nonneg hu hsteps pid intervalMs s.one_le_historyLength now

/-- A history that spans less than one redraw has one entry, and that is enough: of two ticks the
first one drops the entry of the start and the second one the entry of the first. -/
theorem accepted_settings_never_fail_of_short_history :
    let text := "interval_ms = 250\nrefresh_ms = 5000\nhistory_secs = 1".toList
    let s : Settings := ⟨none, 250, Path.ofString "/proc", 5000, 1, false, false, none⟩
    let u := (Usage.start 0).updateAll [⟨1000, 2048, 1024⟩]
    let steps : List Watch.Step := [.tick ⟨1⟩, .sample ⟨2000, 3072, 1024⟩, .tick ⟨2⟩]
    Settings.ofText text = .ok s ∧ s.historyLength = 1 ∧
      ((Scheduler.create 250 u [.rateLog]).start none (.ok ())).2.2 = .ok () ∧
      ∃ d, Dashboard.create 7 250 1 u ⟨0⟩ = .ok d ∧ (Watch.mk d u).Completes steps := by
  intro text s u steps
  have htext : Settings.ofText text = .ok s := by decide +kernel
  obtain ⟨hstart, -, hdashboard⟩ := accepted_settings_never_fail (.text htext)
  have hlength : s.historyLength = 1 := by decide +kernel
  have hsamples : ∀ x ∈ [⟨1000, 2048, 1024⟩] ++ Watch.samples steps,
      x.isUnreadable = false → x.IsNonneg := by
    intro x hx _
    rcases List.mem_pair.mp hx with rfl | rfl <;> exact ⟨by decide, by decide, by decide⟩
  have hd := hdashboard 0 _ steps (by decide) hsamples 7 250 ⟨0⟩
  rw [hlength] at hd
  exact ⟨htext, hlength, (hstart u [.rateLog] (.ok ())).1, hd⟩

end IoWatch
