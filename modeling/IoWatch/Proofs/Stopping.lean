import IoWatch.Proofs.Delivery

/-!
# A stopped scheduler stays stopped

A scheduler is stopped by a stop or its own end, or by a publisher inside a tick. Whatever is asked
of it from then on, it answers without doing anything. The tick that stops it is completed first.

## Main definitions

* `Scheduler.finalAnswer`: the answer of a stopped scheduler to a step
* `Scheduler.Stops`: the steps that stop a scheduler
* `Scheduler.LifeAfter`: what a step can make of the life of a scheduler

## Main results

* `step_of_stopped`, `run_of_stopped`: a stopped scheduler does nothing
* `lifeAfter_step`: what a step makes of the life of a scheduler
* `step_lifecycle_eq_stopped_iff`: the ways into the last state
* `run_ne_created`: once started, a scheduler is never again as good as new
* `stopped_is_final`: all of this over whole runs
-/

namespace IoWatch

namespace Delivery

/-- The publisher at a position receives the sample if and only if none before it aborts on it. -/
theorem handedTo_eq_some_iff (d : Delivery) {p : Nat} (hp : p < d.publishers.length) :
    d.handedTo p = some d.sample ↔
      ∀ q < p, ∀ call, d.calls[q]? = some call → call.outcome.isAborted = false := by
  rw [d.handedTo_eq hp, reaches, ← getsTo_iff]
  split <;> simp_all

/-- Nobody behind a publisher that aborts receives the sample: the broadcast would have got past the
abort. -/
theorem handedTo_eq_none_of_aborted (d : Delivery) {p q : Nat} {call : Call}
    (hcall : d.calls[q]? = some call) (habort : call.outcome.isAborted = true) (hpq : q < p) :
    d.handedTo p = none := by
  rw [handedTo, calls, getElem?_callsOf, if_neg]
  · rfl
  · intro hreach
    have hnot := getsTo_iff.mp hreach q hpq call hcall
    rw [habort] at hnot
    cases hnot

end Delivery

namespace Scheduler

/-- The answer of a stopped scheduler to a step. -/
def finalAnswer (s : Scheduler) : Step → Answer
  | .start intervalMs _ =>
    .refused (if intervalMs.getD s.defaultIntervalMs = 0 then .zeroInterval else .alreadyStopped)
  | .stop => .done
  | .look => .none
  | .drop => .dropped
  | .tick _ => .noWorker

section Stopped

variable {s : Scheduler} (h : s.lifecycle = .stopped)
include h

/-- A stopped scheduler answers every step, does nothing and logs nothing. In particular a tick does
not read its source, and a call writes the last state again. -/
theorem step_of_stopped (step : Step) : s.step step = (s, [], s.finalAnswer step) := by
  have hsame : { s with lifecycle := .stopped } = s := by rw [← h]
  cases step with
  | start intervalMs spawned =>
    by_cases hzero : intervalMs.getD s.defaultIntervalMs = 0 <;>
      simp [Scheduler.step, start, startWith, answerOf, finalAnswer, h, hzero]
  | stop => simp [Scheduler.step, stop, finalAnswer, h, hsame]
  | look => rfl
  | drop => simp [Scheduler.step, drop, finalAnswer, h, hsame]
  | tick source => simp [Scheduler.step, finalAnswer, h]

theorem run_of_stopped (steps : List Step) : s.run steps = (s, []) := by
  induction steps with
  | nil => rfl
  | cons step steps ih => simp [run, step_of_stopped h, ih]

theorem samplesTaken_of_stopped (steps : List Step) : s.samplesTaken steps = [] := by
  induction steps with
  | nil => rfl
  | cons step steps ih =>
    have hnot : s.finalAnswer step ≠ .ticked := by cases step <;> simp [finalAnswer]
    simp [samplesTaken, sampleTaken?, step_of_stopped h, hnot, ih]

end Stopped

section Ways

variable {s : Scheduler} {step : Step}

/-- A step stops the scheduler: it is a stop or the scheduler's own end, or its tick makes a
delivery in which a publisher asks for a stop. -/
def Stops (s : Scheduler) (step : Step) : Prop :=
  step = .stop ∨ step = .drop ∨ ∃ d, s.delivery? step = some d ∧ d.asksStop

/-- What a step can make of the life of a scheduler. -/
inductive LifeAfter (s : Scheduler) (step : Step) : Lifecycle → Prop where
  /-- Nothing. -/
  | unchanged (h : ¬ s.Stops step) : LifeAfter s step s.lifecycle
  /-- It gets a new worker. -/
  | employed (w : Worker) (intervalMs : Option UInt64) (hl : s.lifecycle ≠ .stopped)
    (hs : step = .start intervalMs (.ok ())) : LifeAfter s step (.running w)
  /-- It gets no new worker, and has none. -/
  | unemployed (intervalMs : Option UInt64) (fault : Fault) (hl : s.lifecycle ≠ .stopped)
    (hs : step = .start intervalMs (.error fault)) : LifeAfter s step .created
  /-- It ends. -/
  | ended (h : s.Stops step) : LifeAfter s step .stopped

theorem not_stops_of_no_delivery (hd : s.delivery? step = none) (hstop : step ≠ .stop)
    (hdrop : step ≠ .drop) : ¬ s.Stops step := by
  rintro (h | h | ⟨d, h, -⟩)
  · exact hstop h
  · exact hdrop h
  · rw [hd] at h
    cases h

theorem not_stops_start (intervalMs : Option UInt64) (spawned : Except Fault Unit) :
    ¬ s.Stops (.start intervalMs spawned) :=
  not_stops_of_no_delivery (s.delivery?_of_source?_eq_none _ rfl) (by simp) (by simp)

/-- A start never stops the scheduler, whatever comes of the new worker. -/
theorem lifeAfter_start (intervalMs : Option UInt64) (spawned : Except Fault Unit) :
    s.LifeAfter (.start intervalMs spawned) (s.start intervalMs spawned).1.lifecycle := by
  have hkeep := s.not_stops_start intervalMs spawned
  unfold start startWith
  split
  · exact .unchanged hkeep
  · cases hl : s.lifecycle with
    | stopped => simpa [hl] using LifeAfter.unchanged hkeep
    | _ =>
      cases spawned with
      | ok => exact .employed _ intervalMs (by simp [hl]) rfl
      | error fault => exact .unemployed intervalMs fault (by simp [hl]) rfl

/-- **What a step makes of the life of a scheduler.** -/
theorem lifeAfter_step (s : Scheduler) (step : Step) :
    s.LifeAfter step (s.step step).1.lifecycle := by
  cases hd : s.delivery? step with
  | some d =>
    obtain ⟨w, source, hw, rfl, -, hstep⟩ := s.step_of_delivery step hd
    rw [hstep]
    by_cases hstop : d.asksStop
    · simpa [hstop] using LifeAfter.ended (.inr (.inr ⟨d, hd, hstop⟩))
    · have hkeep : ¬ s.Stops (.tick source) := by simpa [Stops, hd] using hstop
      simpa [hstop, s.lifecycle_of_liveWorker? hw] using LifeAfter.unchanged hkeep
  | none =>
    cases step with
    | start intervalMs spawned => exact lifeAfter_start intervalMs spawned
    | stop => exact .ended (.inl rfl)
    | drop => exact .ended (.inr (.inl rfl))
    | look => exact .unchanged (not_stops_of_no_delivery hd (by simp) (by simp))
    | tick source =>
      have hkeep := not_stops_of_no_delivery hd (by simp) (by simp)
      cases hw : s.liveWorker? with
      | none =>
        rw [(s.step_tick_of_not_live hw source).1]
        exact .unchanged hkeep
      | some w =>
        have hx : source.sample? = none := by simpa [delivery?, sampleTaken?_tick, hw] using hd
        rw [s.step_tick_of_no_sample hw hx]
        exact .unchanged hkeep

/-- There are three ways into the last state: a stop, the scheduler's own end, and a tick in which
a publisher asks for a stop. -/
theorem step_lifecycle_eq_stopped_iff (h : s.lifecycle ≠ .stopped) :
    (s.step step).1.lifecycle = .stopped ↔ s.Stops step := by
  have hlife := s.lifeAfter_step step
  generalize (s.step step).1.lifecycle = after at hlife
  cases hlife with
  | unchanged hkeep => simp [h, hkeep]
  | employed w intervalMs hl hs => simp [hs, not_stops_start]
  | unemployed intervalMs fault hl hs => simp [hs, not_stops_start]
  | ended hstops => simp [hstops]

/-- Where a new worker can always be had, nothing makes a scheduler as good as new. -/
theorem step_ne_created (hspawn : ∀ intervalMs spawned, step = .start intervalMs spawned →
    spawned = .ok ()) (h : s.lifecycle ≠ .created) : (s.step step).1.lifecycle ≠ .created := by
  have hlife := s.lifeAfter_step step
  generalize (s.step step).1.lifecycle = after at hlife
  cases hlife with
  | unchanged => exact h
  | unemployed intervalMs fault hl hs => cases hspawn intervalMs _ hs
  | _ => simp

theorem run_ne_created {steps : List Step} (hspawn : ∀ intervalMs spawned,
    Step.start intervalMs spawned ∈ steps → spawned = .ok ()) (h : s.lifecycle ≠ .created) :
    (s.run steps).1.lifecycle ≠ .created := by
  induction steps generalizing s with
  | nil => exact h
  | cons step steps ih =>
    rw [run_cons]
    refine ih (fun i f hmem => hspawn i f (List.mem_cons_of_mem _ hmem)) ?_
    exact step_ne_created (fun i f heq => hspawn i f (heq ▸ List.mem_cons_self)) h

end Ways

/-- **The last state is final.** Take any scheduler at any point of any run.

If it is stopped there, nothing that is done with it later changes its state or is logged; no later
tick takes a sample, and each later step has its final answer. If it is not, the steps that stop it
are a stop, its own end, and a tick in which a publisher asks for a stop. Such a tick is completed:
every publisher with none before it that aborts receives the sample, nobody behind one that asks for
a stop and aborts does, and the outcome is logged just before the worker exits. Where a new worker
can always be had, a scheduler that was started is never again as good as new. -/
theorem stopped_is_final (s : Scheduler) (earlier : List Step) :
    let t := (s.run earlier).1
    (t.lifecycle = .stopped → ∀ later,
        s.run (earlier ++ later) = s.run earlier ∧ t.samplesTaken later = [] ∧
          ∀ step, (s.run (earlier ++ later)).1.step step = (t, [], t.finalAnswer step)) ∧
      (t.lifecycle ≠ .stopped → ∀ step,
        ((t.step step).1.lifecycle = .stopped ↔ t.Stops step)) ∧
      (∀ step d, t.delivery? step = some d → d.asksStop →
        (t.step step).1.lifecycle = .stopped ∧
          (t.step step).1.publishers = d.broadcast.publishers ∧
          (∀ p < d.publishers.length, d.handedTo p = some d.sample ↔
            ∀ q < p, ∀ call, d.calls[q]? = some call → call.outcome.isAborted = false) ∧
          (∀ q call, d.calls[q]? = some call → Effect.stop ∈ call.effects →
            call.outcome.isAborted = true → ∀ p, q < p → d.handedTo p = none) ∧
          ∃ during, (t.step step).2.1 =
              during ++ [outcomeEvent d.broadcast.outcome, exitingEvent] ∧
            ∀ e ∈ during, e.reportsRates = true ∨ e = stoppedEvent) ∧
      ∀ later, (∀ intervalMs spawned, Step.start intervalMs spawned ∈ later → spawned = .ok ()) →
        t.lifecycle ≠ .created → (s.run (earlier ++ later)).1.lifecycle ≠ .created := by
  intro t
  refine ⟨?_, fun h step => step_lifecycle_eq_stopped_iff h, ?_, ?_⟩
  · intro h later
    have hrun : s.run (earlier ++ later) = s.run earlier := by
      rw [run_append, run_of_stopped h later, List.append_nil]
    refine ⟨hrun, samplesTaken_of_stopped h later, fun step => ?_⟩
    rw [hrun]
    exact step_of_stopped h step
  · intro step d hd hstop
    obtain ⟨w, source, -, -, -, hstep⟩ := t.step_of_delivery step hd
    refine ⟨by simp [hstep, hstop], by rw [hstep], fun p hp => d.handedTo_eq_some_iff hp, ?_, ?_⟩
    · intro q call hcall _ habort p hpq
      exact d.handedTo_eq_none_of_aborted hcall habort hpq
    · refine ⟨(applyEffects (.running w) d.broadcast.effects).2, by simp [hstep, hstop], ?_⟩
      exact fun e he => reportsRates_of_mem_broadcast he
  · intro later hspawn h
    rw [run_append_fst]
    exact run_ne_created hspawn h

/-- A publisher stops its scheduler and fails, the next one aborts, the last one is not called; then
a stop, a start and a tick are tried. -/
theorem stopped_by_first_publisher :
    let stops : Recorder := ⟨[], fun _ => ⟨true, .failed (.write (.other "sink gone"))⟩⟩
    let aborts : Recorder := ⟨[], fun _ => ⟨false, .aborted .publisher⟩⟩
    let keeps : Recorder := ⟨[], fun _ => ⟨false, .published⟩⟩
    let s := create 10 (.start 0) [.recorder stops, .recorder aborts, .recorder keeps]
    let start : Step := .start none (.ok ())
    let tick : Step := .tick (.sample ⟨1, 1, 1⟩)
    let later : List Step := [.stop, .start (some 5) (.ok ())]
    let t := (s.run [start]).1
    s.run ([start, tick] ++ later) = s.run [start, tick] ∧
      t.Stops tick ∧ (t.step tick).1.lifecycle = .stopped ∧
      (t.deliver ⟨1, 1, 1⟩).handedTo 1 = some ⟨1, 1, 1⟩ ∧
      (t.deliver ⟨1, 1, 1⟩).handedTo 2 = none ∧
      (s.run ([start] ++ later)).1.lifecycle ≠ .created := by
  intro stops aborts keeps s start tick later t
  have hstopped : (s.run [start, tick]).1.lifecycle = .stopped := rfl
  obtain ⟨hfinal, -, -, -⟩ := stopped_is_final s [start, tick]
  obtain ⟨-, hways, hcompleted, hcreated⟩ := stopped_is_final s [start]
  obtain ⟨hlast, -, hhanded, -, -⟩ := hcompleted tick (t.deliver ⟨1, 1, 1⟩) rfl (by decide)
  have hway : t.Stops tick := (hways (by decide) tick).mp hlast
  refine ⟨(hfinal hstopped later).1, hway, hlast, ?_, rfl, hcreated later ?_ (by decide)⟩
  · refine (hhanded 1 (by decide)).mpr fun q hq call hcall => ?_
    obtain rfl : q = 0 := by omega
    cases hcall
    rfl
  · intro intervalMs spawned hmem
    simp only [later, List.mem_cons, Step.start.injEq, List.not_mem_nil, or_false] at hmem
    rcases hmem with h | ⟨-, h⟩
    · cases h
    · exact h

end Scheduler

end IoWatch
