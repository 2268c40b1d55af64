import IoWatch.Proofs.Logbook
import IoWatch.Proofs.Stopping

/-!
# Refused starts

A start is refused if its interval is zero, if the scheduler is stopped, or if no worker can be had.
It might as well not have been made, with one exception: a worker in charge is ended before another
one is looked for, so where none can be had the scheduler is left without one.

## Main definitions

* `Scheduler.Refuses`: when a start is refused, and why
* `Scheduler.LosesWorker`: a refusal costs the scheduler its worker

## Main results

* `start_eq_error_iff`: there are no other refusals
* `Refuses.start_eq`, `Refuses.start_eq_of_losesWorker`: what a refused start leaves
* `samplesTaken_of_idle`: without a worker and without a start that finds one, no sample is taken
* `refused_start_keeps_iff`: a refused start changes nothing unless it costs a worker
-/

namespace IoWatch

namespace Scheduler

/-- When a start is refused, and why. The interval is looked at first, then the scheduler. -/
inductive Refuses (s : Scheduler) (intervalMs : Option UInt64) (spawned : Except Fault Unit) :
    SchedulerError → Prop where
  | zeroInterval (h : intervalMs.getD s.defaultIntervalMs = 0) :
      Refuses s intervalMs spawned .zeroInterval
  | alreadyStopped (h : intervalMs.getD s.defaultIntervalMs ≠ 0) (hl : s.lifecycle = .stopped) :
      Refuses s intervalMs spawned .alreadyStopped
  | spawn (fault : Fault) (h : intervalMs.getD s.defaultIntervalMs ≠ 0)
      (hl : s.lifecycle ≠ .stopped) (hs : spawned = .error fault) :
      Refuses s intervalMs spawned (.spawn fault)

/-- A refusal costs the scheduler its worker: there is one, and no other one can be had. -/
def LosesWorker (s : Scheduler) (e : SchedulerError) : Prop :=
  s.lifecycle.isRunning = true ∧ ∃ fault, e = .spawn fault

section Refused

variable {s : Scheduler} {intervalMs : Option UInt64} {spawned : Except Fault Unit}
  {e : SchedulerError}

/-- A refused start that costs no worker does nothing. Where no worker can be had, that is because
there is none to lose and the scheduler is as good as new already. -/
theorem Refuses.start_eq (h : s.Refuses intervalMs spawned e) (hkeep : ¬ s.LosesWorker e) :
    s.start intervalMs spawned = (s, [], .error e) := by
  cases h with
  | zeroInterval hzero => rw [start, startWith, if_pos hzero]
  | alreadyStopped hzero hl => rw [start, startWith, if_neg hzero, hl]
  | spawn fault hzero hl hs =>
    have hcreated : s.lifecycle = .created := by
      cases hlife : s.lifecycle with
      | created => rfl
      | running w => exact absurd ⟨by rw [hlife, Lifecycle.isRunning_running], fault, rfl⟩ hkeep
      | stopped => exact absurd hlife hl
    rw [start, startWith, if_neg hzero, hcreated, hs]
    show ({ s with lifecycle := .created }, [], _) = (s, [], _)
    rw [← hcreated]

theorem LosesWorker.exists_worker (h : s.LosesWorker e) : ∃ w, s.lifecycle = .running w := by
  have hrunning := h.1
  cases hlife : s.lifecycle with
  | running w => exact ⟨w, rfl⟩
  | _ =>
    rw [hlife] at hrunning
    cases hrunning

/-- One that costs a worker ends it, and leaves the scheduler as good as new. -/
theorem Refuses.start_eq_of_losesWorker (h : s.Refuses intervalMs spawned e)
    (hlose : s.LosesWorker e) {w : Worker} (hw : s.lifecycle = .running w) :
    s.start intervalMs spawned =
      ({ s with lifecycle := .created }, restartingEvent :: shutdown w, .error e) := by
  obtain ⟨-, fault, rfl⟩ := hlose
  cases h with
  | spawn _ hzero hl hs =>
    rw [start, startWith, if_neg hzero, hw, hs]
    simp [employ]

/-- Unless the interval is zero or the scheduler is stopped, a start succeeds if a worker can be
had. -/
theorem start_result (hzero : intervalMs.getD s.defaultIntervalMs ≠ 0) (hl : s.lifecycle ≠ .stopped) :
    (s.start intervalMs spawned).2.2 = spawned.mapError .spawn := by
  rw [start, startWith, if_neg hzero]
  cases hlife : s.lifecycle with
  | stopped => exact absurd hlife hl
  | created => cases spawned <;> rfl
  | running w => cases spawned <;> rfl

/-- There are no other refusals. -/
theorem start_eq_error_iff :
    (s.start intervalMs spawned).2.2 = .error e ↔ s.Refuses intervalMs spawned e := by
  constructor
  · intro h
    by_cases hzero : intervalMs.getD s.defaultIntervalMs = 0
    · rw [start, startWith, if_pos hzero] at h
      cases h
      exact .zeroInterval hzero
    by_cases hl : s.lifecycle = .stopped
    · rw [start, startWith, if_neg hzero, hl] at h
      cases h
      exact .alreadyStopped hzero hl
    rw [start_result hzero hl] at h
    cases spawned with
    | ok => cases h
    | error fault =>
      cases h
      exact .spawn fault hzero hl rfl
  · intro h
    by_cases hlose : s.LosesWorker e
    · obtain ⟨w, hw⟩ := hlose.exists_worker
      rw [h.start_eq_of_losesWorker hlose hw]
    · rw [h.start_eq hlose]

end Refused

/-! ## Without a worker -/

section Idle

variable {s : Scheduler}

theorem sampleTaken?_of_not_isRunning (hl : s.lifecycle.isRunning = false) (step : Step) :
    s.sampleTaken? step = none := by
  cases step with
  | tick source =>
    have hdue : s.liveWorker? = none := by
      rw [liveWorker?]
      cases hlife : s.lifecycle with
      | running w =>
        rw [hlife, Lifecycle.isRunning_running] at hl
        cases hl
      | created => rfl
      | stopped => rfl
    rw [sampleTaken?_tick, hdue, Option.bind_none]
  | _ => exact s.sampleTaken?_of_source?_eq_none _ rfl

/-- Only a start that finds a worker puts one in charge. -/
theorem step_not_isRunning (hl : s.lifecycle.isRunning = false) {step : Step}
    (hstep : ∀ intervalMs, step ≠ .start intervalMs (.ok ())) :
    (s.step step).1.lifecycle.isRunning = false := by
  have hlife := s.lifeAfter_step step
  generalize (s.step step).1.lifecycle = after at hlife
  cases hlife with
  | unchanged => exact hl
  | employed _ intervalMs _ hs => exact absurd hs (hstep intervalMs)
  | unemployed => rfl
  | ended => rfl

/-- Without a worker and without a start that finds one, no sample is taken. -/
theorem samplesTaken_of_idle (hl : s.lifecycle.isRunning = false) {steps : List Step}
    (hsteps : ∀ intervalMs, Step.start intervalMs (.ok ()) ∉ steps) : s.samplesTaken steps = [] := by
  induction steps generalizing s with
  | nil => rfl
  | cons step steps ih =>
    have hstep : ∀ intervalMs, step ≠ .start intervalMs (.ok ()) := by
      rintro intervalMs rfl
      exact hsteps intervalMs List.mem_cons_self
    have hlater : ∀ intervalMs, Step.start intervalMs (.ok ()) ∉ steps :=
      fun intervalMs hmem => hsteps intervalMs (List.mem_cons_of_mem _ hmem)
    rw [samplesTaken, sampleTaken?_of_not_isRunning hl, ih (step_not_isRunning hl hstep) hlater]
    rfl

end Idle

/-- **A refused start changes nothing, unless it costs a worker.** A start of any scheduler, with any
interval, whether a worker can be had or not, is refused exactly if its interval is zero, or else
the scheduler is stopped, or else no worker can be had. The lifecycle is then the one before the
start exactly if the refusal costs no worker, and in that case the start might as well not have been
made: nothing else has changed, nothing is logged, and whatever is done later goes as it would have
gone without it. If the refusal costs a worker, that worker has been shut down, with the exit of its
thread in the log unless an abort had ended that before, and the scheduler is as good as new; until
a start finds a worker, no sample is taken any more. -/
theorem refused_start_keeps_iff (s : Scheduler) (intervalMs : Option UInt64)
    (spawned : Except Fault Unit) (e : SchedulerError) :
    let after := s.start intervalMs spawned
    (after.2.2 = .error e ↔ s.Refuses intervalMs spawned e) ∧
      (after.2.2 = .error e →
        (after.1.lifecycle = s.lifecycle ↔ ¬ s.LosesWorker e) ∧
        (¬ s.LosesWorker e → after.1 = s ∧ after.2.1 = [] ∧
          ∀ later, s.run (.start intervalMs spawned :: later) = s.run later) ∧
        (s.LosesWorker e → after.1 = { s with lifecycle := .created } ∧
          (∃ w, s.lifecycle = .running w ∧ after.2.1 = restartingEvent :: shutdown w) ∧
          (s.IsIntact → after.2.1 = [restartingEvent, exitingEvent]) ∧
          ∀ later, (∀ intervalMs, Step.start intervalMs (.ok ()) ∉ later) →
            s.samplesTaken (.start intervalMs spawned :: later) = [])) := by
  intro after
  refine ⟨start_eq_error_iff, fun hrefused => ?_⟩
  have hrefuses := start_eq_error_iff.mp hrefused
  by_cases hlose : s.LosesWorker e
  · obtain ⟨w, hw⟩ := hlose.exists_worker
    have hafter : after = _ := hrefuses.start_eq_of_losesWorker hlose hw
    have hchanged : after.1.lifecycle ≠ s.lifecycle := by
      rw [hafter, hw]
      simp
    have hidle : (s.step (.start intervalMs spawned)).1.lifecycle.isRunning = false := by
      show after.1.lifecycle.isRunning = false
      rw [hafter, Lifecycle.isRunning_created]
    refine ⟨iff_of_false hchanged (not_not_intro hlose), fun hkeep => absurd hlose hkeep, fun _ => ?_⟩
    refine ⟨by rw [hafter], ⟨w, hw, by rw [hafter]⟩, fun hintact => ?_, fun later hlater => ?_⟩
    · rw [hafter, hintact.shutdown_eq hw]
    · rw [samplesTaken, s.sampleTaken?_of_source?_eq_none _ rfl, Option.toList_none,
        List.nil_append]
      exact samplesTaken_of_idle hidle hlater
  · have hafter : after = _ := hrefuses.start_eq hlose
    refine ⟨iff_of_true (by rw [hafter]) hlose, fun _ => ?_, fun h => absurd h hlose⟩
    refine ⟨by rw [hafter], by rw [hafter], fun later => ?_⟩
    show ((after.1.run later).1, after.2.1 ++ (after.1.run later).2) = s.run later
    rw [hafter]
    rfl

/-- A running scheduler is started with a zero interval, and keeps its worker; then it is started when
no other worker can be had, and the sample of the next tick is not taken. -/
theorem refused_start_keeps_iff_of_running :
    let s := ((create 10 (.start 0) []).run [.start none (.ok ()), .tick (.sample ⟨1, 1, 1⟩)]).1
    let fault : Fault := .other "Resource temporarily unavailable (os error 11)"
    let later : List Step := [.tick (.sample ⟨2, 2, 2⟩)]
    s.lifecycle = .running ⟨10, false⟩ ∧ s.samplesTaken later = [⟨2, 2, 2⟩] ∧
      (s.start (some 0) (.error fault)).2.2 = .error .zeroInterval ∧
      s.run (.start (some 0) (.error fault) :: later) = s.run later ∧
      (s.start (some 20) (.error fault)).2.2 = .error (.spawn fault) ∧
      (s.start (some 20) (.error fault)).1 = { s with lifecycle := .created } ∧
      s.samplesTaken (.start (some 20) (.error fault) :: later) = [] := by
  intro s fault later
  have hrunning : s.lifecycle = .running ⟨10, false⟩ := rfl
  have hzero : (s.start (some 0) (.error fault)).2.2 = .error .zeroInterval := rfl
  have hspawn : (s.start (some 20) (.error fault)).2.2 = .error (.spawn fault) := rfl
  obtain ⟨-, hzeroKeeps, -⟩ :=
    (refused_start_keeps_iff s (some 0) (.error fault) .zeroInterval).2 hzero
  obtain ⟨-, -, hspawnLoses⟩ :=
    (refused_start_keeps_iff s (some 20) (.error fault) (.spawn fault)).2 hspawn
  have hkeep : ¬ s.LosesWorker .zeroInterval := by
    rintro ⟨-, other, hother⟩
    cases hother
  have hlose : s.LosesWorker (.spawn fault) := ⟨rfl, fault, rfl⟩
  obtain ⟨hleft, -, -, hlater⟩ := hspawnLoses hlose
  refine ⟨hrunning, rfl, hzero, (hzeroKeeps hkeep).2.2 later, hspawn, hleft, hlater later ?_⟩
  simp [later]

/-- A refused start can leave another state than the one before it: no worker can be had in place of
one that runs. -/
theorem worker_lost_to_refused_start :
    let s := ((create 10 (.start 0) []).run [.start none (.ok ())]).1
    let fault : Fault := .other "Resource temporarily unavailable (os error 11)"
    s.lifecycle = .running ⟨10, false⟩ ∧
      (s.start (some 20) (.error fault)).2.2 = .error (.spawn fault) ∧
      (s.start (some 20) (.error fault)).1.lifecycle = .created ∧
      ¬ ∀ (s : Scheduler) (intervalMs : Option UInt64) (spawned : Except Fault Unit)
        (e : SchedulerError), (s.start intervalMs spawned).2.2 = .error e →
          (s.start intervalMs spawned).1.lifecycle = s.lifecycle := by
  intro s fault
  refine ⟨rfl, rfl, rfl, fun hkept => ?_⟩
  have hsame := hkept s (some 20) (.error fault) (.spawn fault) rfl
  cases hsame

end Scheduler

end IoWatch
