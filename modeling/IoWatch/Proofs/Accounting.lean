import IoWatch.Proofs.Stopping
import IoWatch.Proofs.TickReport

/-!
# The workers of a run

Workers come and go in few ways, and the log tells each of them. So over a run there is one start of
a worker more than there are exits while the scheduler runs, and as many as exits else; a restart is
announced for each start that replaces a worker, and a stop at most once.

## Main definitions

* `Event.isOfWorker`: the events that tell of a worker
* `Scheduler.Turnover`: how workers come and go in a step, and what is said of it
* `Scheduler.restarts`, `Scheduler.LeavesByStop`: the steps that replace a worker, and that stop it

## Main results

* `turnover_step`: what a step does to the worker of a scheduler
* `run_accounts_for_workers`: the workers of a run in its log
-/

namespace IoWatch

/-- What is said of a worker that comes or goes. -/
def workerMessages : List String :=
  ["Process I/O sampler started", "Restarting sampler with new interval", "Sampler thread exiting",
    "Process I/O sampler stopped"]

def Event.isOfWorker (e : Event) : Bool := workerMessages.contains e.message

theorem countP_filter_isOfWorker (text : String) (h : text ∈ workerMessages) (log : List Event) :
    (log.filter Event.isOfWorker).countP (Event.hasMessage text) =
      log.countP (Event.hasMessage text) := by
  rw [List.countP_filter]
  refine List.countP_congr fun e _ => ?_
  rw [Bool.and_eq_true, and_iff_left_iff_imp]
  intro he
  rw [Event.hasMessage, beq_iff_eq] at he
  simp [Event.isOfWorker, he, h]

def Step.isStart : Step → Bool
  | start .. => true
  | _ => false

namespace Scheduler

@[simp] theorem isOfWorker_startedEvent (intervalMs : UInt64) :
    (startedEvent intervalMs).isOfWorker = true := by
  simp [startedEvent, Event.isOfWorker, workerMessages]

@[simp] theorem isOfWorker_restartingEvent : restartingEvent.isOfWorker = true := rfl

@[simp] theorem isOfWorker_exitingEvent : exitingEvent.isOfWorker = true := rfl

@[simp] theorem isOfWorker_stoppedEvent : stoppedEvent.isOfWorker = true := rfl

@[simp] theorem isOfWorker_skippedEvent : skippedEvent.isOfWorker = false := rfl

@[simp] theorem isOfWorker_abortedEvent : abortedEvent.isOfWorker = false := rfl

@[simp] theorem isOfWorker_outcomeEvent (o : Outcome) : (outcomeEvent o).isOfWorker = false := by
  cases o <;> rfl

theorem isOfWorker_eq_false_of_reportsRates (e : Event) (he : e.reportsRates = true) :
    e.isOfWorker = false := by
  rw [Event.reportsRates, beq_iff_eq] at he
  simp [Event.isOfWorker, workerMessages, he]

/-- Of its worker, a tick says no more than that it is stopped and exits. -/
theorem filter_isOfWorker_tick {s : Scheduler} {w : Worker} (hw : s.lifecycle = .running w)
    (source : Source) :
    (s.tick source).2.filter Event.isOfWorker =
      if s.TickStops source then [stoppedEvent, exitingEvent] else [] := by
  cases hx : source.sample? with
  | none =>
    have hread : source.events.filter Event.isOfWorker = [] := by
      rw [List.filter_eq_nil_iff]
      intro e he
      simp [Event.isOfWorker, workerMessages, Source.message_of_mem_events he]
    rw [tick_of_no_sample hw hx, List.filter_append, hread,
      if_neg (not_tickStops_of_no_sample hx)]
    split <;> simp
  | some x =>
    rw [← filter_withoutRates isOfWorker_eq_false_of_reportsRates,
      withoutRates_tick_of_sample hw hx]
    simp only [tickStops_iff hx]
    split <;> simp [List.filter_cons]

/-! ## One step -/

/-- A step is a start that replaces a worker. -/
def restarts (s : Scheduler) (step : Step) : Bool :=
  s.lifecycle.isRunning && step.isStart && (s.step step).2.2 = .done

/-- A step stops the worker in charge, and is not the end of the scheduler itself. -/
def LeavesByStop (s : Scheduler) (step : Step) : Prop :=
  s.lifecycle.isRunning = true ∧ step ≠ .drop ∧ (s.step step).1.lifecycle = .stopped

/-- How workers come and go in a step, and what is said of it. -/
inductive Turnover (s : Scheduler) (step : Step) : List Event → Lifecycle → Prop where
  /-- None comes or goes. -/
  | same (l : Lifecycle) (hl : l.isRunning = s.lifecycle.isRunning)
      (hs : s.restarts step = false) : Turnover s step [] l
  | hired (intervalMs : UInt64) (w : Worker) (hl : s.lifecycle.isRunning = false) :
      Turnover s step [startedEvent intervalMs] (.running w)
  | replaced (intervalMs : UInt64) (w : Worker) (hl : s.lifecycle.isRunning = true)
      (hs : s.restarts step = true) :
      Turnover s step [restartingEvent, exitingEvent, startedEvent intervalMs] (.running w)
  /-- No other worker can be had in its place. -/
  | lost (intervalMs : Option UInt64) (fault : Fault) (hl : s.lifecycle.isRunning = true)
      (hs : step = .start intervalMs (.error fault)) :
      Turnover s step [restartingEvent, exitingEvent] .created
  | stopped (hl : s.lifecycle.isRunning = true) (hs : step = .stop) :
      Turnover s step [exitingEvent, stoppedEvent] .stopped
  | dropped (hl : s.lifecycle.isRunning = true) (hs : step = .drop) :
      Turnover s step [exitingEvent] .stopped
  /-- It is stopped from inside its tick. -/
  | stopsItself (hl : s.lifecycle.isRunning = true) (source : Source) (hs : step = .tick source) :
      Turnover s step [stoppedEvent, exitingEvent] .stopped

section Step

variable {s : Scheduler} (hintact : s.IsIntact) (step : Step)
include hintact

theorem turnover_start (intervalMs : Option UInt64) (spawned : Except Fault Unit) :
    s.Turnover (.start intervalMs spawned)
      ((s.start intervalMs spawned).2.1.filter Event.isOfWorker)
      (s.start intervalMs spawned).1.lifecycle := by
  by_cases hzero : intervalMs.getD s.defaultIntervalMs = 0
  · have hstart : s.start intervalMs spawned = (s, [], .error .zeroInterval) := by
      rw [start, startWith, if_pos hzero]
    rw [hstart]
    exact .same _ rfl (by simp [restarts, Scheduler.step, hstart, answerOf])
  · cases hl : s.lifecycle with
    | stopped =>
      have hstart : s.start intervalMs spawned = (s, [], .error .alreadyStopped) := by
        rw [start, startWith, if_neg hzero, hl]
      rw [hstart]
      exact .same _ rfl (by simp [restarts, hl])
    | created =>
      cases spawned with
      | ok =>
        simpa [start, startWith, hzero, hl, employ] using
          Turnover.hired (s := s) _ _ (by rw [hl]; rfl)
      | error fault =>
        have hsame : s.restarts (.start intervalMs (.error fault)) = false := by
          simp [restarts, hl]
        simpa [start, startWith, hzero, hl, employ] using
          Turnover.same (s := s) .created (by rw [hl]) hsame
    | running w =>
      have hrunning : s.lifecycle.isRunning = true := by rw [hl]; rfl
      cases spawned with
      | ok =>
        have hreplaced : s.restarts (.start intervalMs (.ok ())) = true := by
          simp [restarts, Step.isStart, Scheduler.step, start, startWith, hzero,
            hl, employ, answerOf]
        simpa [start, startWith, hzero, hl, hintact.shutdown_eq hl, employ, List.filter_cons] using
          Turnover.replaced (s := s) _ _ hrunning hreplaced
      | error fault =>
        simpa [start, startWith, hzero, hl, hintact.shutdown_eq hl, employ, List.filter_cons] using
          Turnover.lost (s := s) intervalMs fault hrunning rfl

/-- **How workers come and go.** -/
theorem turnover_step :
    s.Turnover step ((s.step step).2.1.filter Event.isOfWorker) (s.step step).1.lifecycle := by
  cases step with
  | start intervalMs spawned => exact turnover_start hintact intervalMs spawned
  | stop =>
    cases hl : s.lifecycle with
    | running w =>
      simpa [Scheduler.step, stop, hl, hintact.shutdown_eq hl, List.filter_cons] using
        Turnover.stopped (s := s) (by rw [hl]; rfl) rfl
    | _ =>
      have hsame : s.Turnover .stop [] .stopped :=
        .same _ (by simp [hl]) (by simp [restarts, Step.isStart])
      simpa [Scheduler.step, stop, hl] using hsame
  | drop =>
    cases hl : s.lifecycle with
    | running w =>
      simpa [Scheduler.step, drop, hl, hintact.shutdown_eq hl, List.filter_cons] using
        Turnover.dropped (s := s) (by rw [hl]; rfl) rfl
    | _ =>
      have hsame : s.Turnover .drop [] .stopped :=
        .same _ (by simp [hl]) (by simp [restarts, Step.isStart])
      simpa [Scheduler.step, drop, hl] using hsame
  | look => exact .same _ rfl (by simp [restarts, Step.isStart])
  | tick source =>
    have hsame : s.restarts (.tick source) = false := by simp [restarts, Step.isStart]
    cases hw : s.liveWorker? with
    | none =>
      obtain ⟨hstate, hlog, -⟩ := s.step_tick_of_not_live hw source
      rw [hstate, hlog]
      exact .same _ rfl hsame
    | some w =>
      have hl := s.lifecycle_of_liveWorker? hw
      rw [s.step_tick_of_live hw source]
      simp only [filter_isOfWorker_tick hl, tick_lifecycle hl]
      split
      · exact .stopsItself (by rw [hl]; rfl) source rfl
      · exact .same _ (by rw [hl]) hsame

/-- A worker that starts is had from then on, and one that exits is not. -/
theorem workers_step :
    (s.step step).2.1.countP (Event.hasMessage "Process I/O sampler started") +
        s.lifecycle.isRunning.toNat =
      (s.step step).2.1.countP (Event.hasMessage "Sampler thread exiting") +
        (s.step step).1.lifecycle.isRunning.toNat := by
  have hturnover := turnover_step hintact step
  rw [← countP_filter_isOfWorker "Process I/O sampler started" (by simp [workerMessages]),
    ← countP_filter_isOfWorker "Sampler thread exiting" (by simp [workerMessages])]
  generalize (s.step step).2.1.filter Event.isOfWorker = told at hturnover ⊢
  generalize (s.step step).1.lifecycle = after at hturnover ⊢
  cases hturnover with
  | same l hl => simp [hl]
  | hired intervalMs w hl => simp [hl, Event.hasMessage, startedEvent]
  | replaced intervalMs w hl =>
    simp [hl, Event.hasMessage, startedEvent, restartingEvent, exitingEvent]
  | lost intervalMs fault hl => simp [hl, Event.hasMessage, restartingEvent, exitingEvent]
  | stopped hl => simp [hl, Event.hasMessage, exitingEvent, stoppedEvent]
  | dropped hl => simp [hl, Event.hasMessage, exitingEvent]
  | stopsItself hl => simp [hl, Event.hasMessage, exitingEvent, stoppedEvent]

/-- A stop of a worker in charge is said once, wherever it comes from. -/
theorem countP_stopped_step :
    (s.step step).2.1.countP (Event.hasMessage "Process I/O sampler stopped") ≤ 1 ∧
      ((s.step step).2.1.countP (Event.hasMessage "Process I/O sampler stopped") = 1 ↔
        s.LeavesByStop step) := by
  have hturnover := turnover_step hintact step
  rw [← countP_filter_isOfWorker "Process I/O sampler stopped" (by simp [workerMessages]),
    LeavesByStop]
  generalize (s.step step).2.1.filter Event.isOfWorker = told at hturnover ⊢
  generalize (s.step step).1.lifecycle = after at hturnover ⊢
  cases hturnover with
  | same l hl =>
    simp only [List.countP_nil, Nat.zero_le, Nat.zero_ne_one, false_iff, true_and]
    rintro ⟨hrunning, -, rfl⟩
    rw [hrunning] at hl
    cases hl
  | hired => simp [Event.hasMessage, startedEvent]
  | replaced => simp [Event.hasMessage, startedEvent, restartingEvent, exitingEvent]
  | lost => simp [Event.hasMessage, restartingEvent, exitingEvent]
  | stopped hl hs => simp [hl, hs, Event.hasMessage, exitingEvent, stoppedEvent]
  | dropped hl hs => simp [hs, Event.hasMessage, exitingEvent]
  | stopsItself hl source hs => simp [hl, hs, Event.hasMessage, exitingEvent, stoppedEvent]

/-- Where a new worker can be had, a restart is announced by a start that replaces a worker. -/
theorem countP_restarting_step
    (hspawn : ∀ intervalMs spawned, step = .start intervalMs spawned → spawned = .ok ()) :
    (s.step step).2.1.countP (Event.hasMessage "Restarting sampler with new interval") =
      if s.restarts step then 1 else 0 := by
  have hturnover := turnover_step hintact step
  rw [← countP_filter_isOfWorker "Restarting sampler with new interval" (by simp [workerMessages])]
  generalize (s.step step).2.1.filter Event.isOfWorker = told at hturnover ⊢
  generalize (s.step step).1.lifecycle = after at hturnover
  cases hturnover with
  | same l hl hs => simp [hs]
  | hired intervalMs w hl => simp [restarts, hl, Event.hasMessage, startedEvent]
  | replaced intervalMs w hl hs =>
    simp [hs, Event.hasMessage, startedEvent, restartingEvent, exitingEvent]
  | lost intervalMs fault hl hs => cases hspawn intervalMs _ hs
  | stopped hl hs =>
    simp [restarts, hs, Step.isStart, Event.hasMessage, exitingEvent, stoppedEvent]
  | dropped hl hs => simp [restarts, hs, Step.isStart, Event.hasMessage, exitingEvent]
  | stopsItself hl source hs =>
    simp [restarts, hs, Step.isStart, Event.hasMessage, exitingEvent, stoppedEvent]

end Step

/-! ## Runs -/

theorem workers_run {s : Scheduler} (hintact : s.IsIntact) (steps : List Step) :
    (s.run steps).2.countP (Event.hasMessage "Process I/O sampler started") +
        s.lifecycle.isRunning.toNat =
      (s.run steps).2.countP (Event.hasMessage "Sampler thread exiting") +
        (s.run steps).1.lifecycle.isRunning.toNat := by
  induction steps generalizing s with
  | nil => simp [run]
  | cons step steps ih =>
    have hfirst := workers_step hintact step
    have hlater := ih (hintact.step step)
    rw [run_log_cons, run_cons, List.countP_append, List.countP_append]
    omega

/-- The only stop that a run reports is the one that ends its last worker. From there on the
scheduler is stopped and logs no more. -/
theorem countP_stopped_run {s : Scheduler} (hintact : s.IsIntact) (steps : List Step) :
    (s.run steps).2.countP (Event.hasMessage "Process I/O sampler stopped") ≤ 1 ∧
      ((s.run steps).2.countP (Event.hasMessage "Process I/O sampler stopped") = 1 ↔
        ∃ earlier step later, steps = earlier ++ step :: later ∧
          (s.run earlier).1.LeavesByStop step) := by
  induction steps generalizing s with
  | nil => simp [run]
  | cons step steps ih =>
    obtain ⟨hle, hone⟩ := countP_stopped_step hintact step
    rw [run_log_cons, List.countP_append]
    by_cases hleaves : s.LeavesByStop step
    · rw [run_of_stopped hleaves.2.2 steps, hone.mpr hleaves]
      exact ⟨by simp, iff_of_true (by simp) ⟨[], step, steps, rfl, hleaves⟩⟩
    · have hzero :
          (s.step step).2.1.countP (Event.hasMessage "Process I/O sampler stopped") = 0 := by
        have hnot := mt hone.mp hleaves
        omega
      rw [hzero, Nat.zero_add]
      obtain ⟨hlater, hlaterOne⟩ := ih (hintact.step step)
      refine ⟨hlater, hlaterOne.trans ⟨?_, ?_⟩⟩
      · rintro ⟨earlier, step', later, rfl, hleaves'⟩
        exact ⟨step :: earlier, step', later, rfl, hleaves'⟩
      · rintro ⟨earlier, step', later, heq, hleaves'⟩
        cases earlier with
        | nil =>
          obtain ⟨rfl, rfl⟩ := List.cons.inj heq
          exact (hleaves hleaves').elim
        | cons first earlier =>
          obtain ⟨rfl, rfl⟩ := List.cons.inj heq
          exact ⟨earlier, step', later, rfl, hleaves'⟩

/-- **Workers are accounted for.** Take any run of a new scheduler, to any of its points. The log
has one start of a worker more than it has exits if the scheduler runs there, and as many else.
Where a new worker can always be had, it announces as many restarts as starts have replaced a
worker. It reports a stop at most once, and does so exactly if the scheduler has left its worker by
a stop, from outside or from inside a tick, and not by its own end. -/
theorem run_accounts_for_workers (intervalMs : UInt64) (usage : Usage)
    (publishers : List Publisher) (steps : List Step) :
    let s := create intervalMs usage publishers
    let after := (s.run steps).1
    let log := (s.run steps).2
    (log.countP (Event.hasMessage "Process I/O sampler started") =
      log.countP (Event.hasMessage "Sampler thread exiting") +
        if after.lifecycle.isRunning then 1 else 0) ∧
    ((∀ intervalMs spawned, Step.start intervalMs spawned ∈ steps → spawned = .ok ()) →
      log.countP (Event.hasMessage "Restarting sampler with new interval") =
        s.howOften restarts steps) ∧
    log.countP (Event.hasMessage "Process I/O sampler stopped") ≤ 1 ∧
    (log.countP (Event.hasMessage "Process I/O sampler stopped") = 1 ↔
      ∃ earlier step later, steps = earlier ++ step :: later ∧
        (s.run earlier).1.LeavesByStop step) := by
  intro s after log
  have hintact : s.IsIntact := isIntact_create intervalMs usage publishers
  refine ⟨?_, fun hspawn => ?_, countP_stopped_run hintact steps⟩
  · have hrun := workers_run hintact steps
    have hnew : s.lifecycle.isRunning = false := rfl
    rw [hnew, Bool.toNat_false, Nat.add_zero] at hrun
    rw [hrun]
    cases after.lifecycle.isRunning <;> rfl
  · refine countP_run (fun t step ht => ht.step step)
      (fun t ht step hmem => countP_restarting_step ht step ?_) hintact
    rintro intervalMs spawned rfl
    exact hspawn intervalMs spawned hmem

/-- A scheduler is restarted, a start with no interval is refused, and the first publisher stops the
scheduler in its second call. -/
theorem run_accounts_for_restart :
    let stopsLate : Recorder := ⟨[], fun calls => ⟨calls == 2, .published⟩⟩
    let s := create 10 (.start 0) [.recorder stopsLate]
    let tick (time : Int64) : Step := .tick (.sample ⟨time, 1, 1⟩)
    let steps : List Step := [.start none (.ok ()), tick 1, .start (some 5) (.ok ()),
      .start (some 0) (.ok ()), tick 2, .stop, .start none (.ok ()), .drop]
    let log := (s.run steps).2
    (∀ intervalMs spawned, Step.start intervalMs spawned ∈ steps → spawned = .ok ()) ∧
      log.countP (Event.hasMessage "Restarting sampler with new interval") = 1 ∧
      log.countP (Event.hasMessage "Process I/O sampler started") =
        log.countP (Event.hasMessage "Sampler thread exiting") ∧
      log.countP (Event.hasMessage "Process I/O sampler stopped") = 1 := by
  intro stopsLate s tick steps log
  have hspawn : ∀ intervalMs spawned, Step.start intervalMs spawned ∈ steps → spawned = .ok () := by
    intro intervalMs spawned hmem
    simp only [steps, tick, List.mem_cons, reduceCtorEq, Step.start.injEq, List.not_mem_nil,
      or_false, false_or] at hmem
    rcases hmem with h | h | h | h <;> exact h.2
  obtain ⟨hworkers, hrestarts, -, hstopped⟩ :=
    run_accounts_for_workers 10 (.start 0) [.recorder stopsLate] steps
  refine ⟨hspawn, (hrestarts hspawn).trans ?_, hworkers.trans ?_, hstopped.mpr ?_⟩
  · decide +kernel
  · decide +kernel
  · exact ⟨steps.take 4, tick 2, [.stop, .start none (.ok ()), .drop], rfl, rfl,
      by simp [tick], rfl⟩

end Scheduler

end IoWatch
