import IoWatch.Proofs.Broadcast
import IoWatch.Scheduler

/-!
# What a step does

A tick that runs and reads a readable sample makes a delivery: the sample goes into the usage and
then to the publishers. Nothing else that a scheduler does touches the usage or a publisher, and
nothing else reports rates.

## Main definitions

* `Source.sample?`: the readable sample that a source gives
* `Delivery`: a sample on its way to the publishers
* `Delivery.reaches`, `Delivery.handedTo`: the positions of the list whose publisher is called
* `Scheduler.sampleTaken?`, `Scheduler.delivery?`: the sample that a step takes, and its delivery
* `Scheduler.liveWorker?`: the worker whose tick can come
* `Scheduler.IsIntact`: no abort has ended the thread of the worker in charge

## Main results

* `cycle_of_no_sample`, `cycle_of_sample`: the two cases of a cycle
* `tick_of_no_sample`, `tick_of_sample`: and of a tick that runs
* `step_tick_of_live`, `step_tick_of_not_live`: the two cases of the time of a tick
* `IsIntact.step`: no step lets an abort end the thread of a worker
* `step_usage`, `step_publishers`, `filter_reportsRates_step`: what a step does to the usage, to the
  publishers and in the log is what its delivery does
-/

namespace IoWatch

/-- The readable sample that a source gives, if it gives one. -/
def Source.sample? (source : Source) : Option Sample :=
  source.read.bind fun reading =>
    if reading.sample.isUnreadable then none else some reading.sample

/-- What is logged while a source is read. -/
def Source.events (source : Source) : List Event := (source.read.map Reading.events).getD []

theorem Source.isUnreadable_of_sample? {source : Source} {x : Sample}
    (h : source.sample? = some x) : x.isUnreadable = false := by
  unfold sample? at h
  cases hr : source.read with
  | none => simp [hr] at h
  | some reading =>
    rw [hr, Option.bind_some] at h
    split at h
    · cases h
    · next hreadable =>
      cases h
      simpa using hreadable

/-- Of a reading, only its failure is logged. -/
theorem Source.message_of_mem_events {source : Source} {e : Event} (h : e ∈ source.events) :
    e.message = "Process I/O counters unreadable" := by
  cases source with
  | sample s => simp [events, read] at h
  | broken => simp [events, read] at h
  | countersFile path clock text =>
    simp only [events, read, Option.map_some, Option.getD_some, readSample] at h
    cases hc : readCounters path text with
    | ok counters => simp [hc] at h
    | error error =>
      obtain rfl : e = error.event path := by simpa [hc] using h
      rfl

theorem Source.reportsRates_of_mem_events {source : Source} {e : Event}
    (h : e ∈ source.events) : e.reportsRates = false := by
  rw [Event.reportsRates, message_of_mem_events h]
  rfl

/-- Nothing is logged while a readable sample is read. -/
theorem Source.events_of_sample? {source : Source} {x : Sample} (h : source.sample? = some x) :
    source.events = [] := by
  cases source with
  | sample s => rfl
  | broken => cases h
  | countersFile path clock text =>
    simp only [sample?, events, read, readSample, Option.bind_some, Option.map_some,
      Option.getD_some] at h ⊢
    cases hc : readCounters path text with
    | ok counters => rfl
    | error error => simp [hc] at h

/-- A readable sample on its way to the publishers, and the usage that it has been taken into. -/
structure Delivery where
  /-- The usage, with the sample in it. -/
  usage : Usage
  /-- The sample. -/
  sample : Sample
  /-- The publishers to be served. -/
  publishers : List Publisher

namespace Delivery

/-- The calls that are made with the sample. -/
def calls (d : Delivery) : List Call := callsOf d.publishers d.usage d.sample

/-- The sample in the hands of the publishers. -/
def broadcast (d : Delivery) : Broadcast := publishAll d.publishers d.usage d.sample

/-- Whether no publisher before a position aborts on the sample. -/
def reaches (d : Delivery) (p : Nat) : Bool := getsTo d.calls p

/-- The sample, if the publisher at a position is called with it. -/
def handedTo (p : Nat) (d : Delivery) : Option Sample := d.calls[p]?.map fun _ => d.sample

/-- Whether some publisher asks the scheduler to stop. -/
def asksStop (d : Delivery) : Prop := ∃ call ∈ d.calls, Effect.stop ∈ call.effects

/-- Each call is one of the publisher at its position. -/
theorem exists_publisher_of_call {d : Delivery} {q : Nat} {call : Call}
    (h : d.calls[q]? = some call) :
    ∃ p, d.publishers[q]? = some p ∧ call = p.publish d.usage d.sample := by
  rw [calls, getElem?_callsOf] at h
  split at h
  · obtain ⟨p, hp, rfl⟩ := Option.map_eq_some_iff.mp h
    exact ⟨p, hp, rfl⟩
  · cases h

theorem asksStop_iff {d : Delivery} : d.asksStop ↔ Effect.stop ∈ d.broadcast.effects := by
  simp [asksStop, broadcast, calls, publishAll_effects]

/-- The events that the calls log. -/
def logged (d : Delivery) : List Event := d.calls.flatMap Call.logged

theorem logged_eq (d : Delivery) : d.logged = d.broadcast.effects.filterMap Effect.event? := by
  simp only [logged, calls, broadcast, publishAll_effects, List.filterMap_flatMap]
  rfl

theorem reportsRates_of_mem_logged {d : Delivery} {e : Event} (h : e ∈ d.logged) :
    e.reportsRates = true := by
  obtain ⟨call, hcall, he⟩ := List.mem_flatMap.mp h
  obtain ⟨i, hi⟩ := List.getElem?_of_mem hcall
  obtain ⟨p, -, rfl⟩ := exists_publisher_of_call hi
  exact Publisher.reportsRates_of_mem_logged he

instance (d : Delivery) : Decidable d.asksStop :=
  decidable_of_iff (Effect.stop ∈ d.broadcast.effects) asksStop_iff.symm

theorem handedTo_eq (d : Delivery) {p : Nat} (hp : p < d.publishers.length) :
    d.handedTo p = if d.reaches p then some d.sample else none := by
  rw [handedTo, calls, getElem?_callsOf, List.getElem?_eq_getElem hp, reaches, calls]
  split <;> rfl

end Delivery

/-- A publisher after a delivery that reaches it. -/
def Publisher.receive (p : Publisher) (d : Delivery) : Publisher :=
  (p.publish d.usage d.sample).next

/-- The source that a step reads from, if it ticks. -/
def Step.source? : Step → Option Source
  | tick source => some source
  | _ => none

namespace Scheduler

/-- The readable sample that a step takes: its tick runs, and its source gives one. -/
def sampleTaken? (s : Scheduler) (step : Step) : Option Sample :=
  if (s.step step).2.2 = .ticked then step.source?.bind Source.sample? else none

/-- The delivery of a sample that is taken now. -/
def deliver (s : Scheduler) (x : Sample) : Delivery := ⟨s.usage.update x, x, s.publishers⟩

/-- The delivery that a step makes. -/
def delivery? (s : Scheduler) (step : Step) : Option Delivery :=
  (s.sampleTaken? step).map s.deliver

/-- The event that reports how a broadcast ended. -/
def outcomeEvent : Outcome → Event
  | .published => publishedEvent
  | .failed error => failedEvent error
  | .aborted _ => abortedEvent

@[simp] theorem report_completionOf (o : Outcome) :
    report (completionOf o) = ([outcomeEvent o], .returned ()) := by
  cases o <;> rfl

/-! ## The end of a worker -/

/-- A worker whose thread has not ended exits when it is shut down. -/
theorem shutdown_of_live {w : Worker} (h : w.aborted = false) : shutdown w = [exitingEvent] := by
  simp [shutdown, finish, joined, h]

theorem mem_shutdown {w : Worker} {e : Event} (h : e ∈ shutdown w) :
    e = exitingEvent ∨ w.aborted = true ∧ e = strayAbortEvent := by
  cases hw : w.aborted <;> simp_all [shutdown, finish, joined]

/-! ## Events that report no rates -/

@[simp, grind =] theorem reportsRates_startedEvent (intervalMs : UInt64) :
    (startedEvent intervalMs).reportsRates = false := by simp [startedEvent, Event.reportsRates]

@[simp, grind =] theorem reportsRates_restartingEvent :
    restartingEvent.reportsRates = false := rfl

@[simp, grind =] theorem reportsRates_exitingEvent : exitingEvent.reportsRates = false := rfl

@[simp, grind =] theorem reportsRates_stoppedEvent : stoppedEvent.reportsRates = false := rfl

@[simp, grind =] theorem reportsRates_strayAbortEvent : strayAbortEvent.reportsRates = false := rfl

@[simp, grind =] theorem reportsRates_skippedEvent : skippedEvent.reportsRates = false := rfl

@[simp, grind =] theorem reportsRates_abortedEvent : abortedEvent.reportsRates = false := rfl

@[simp, grind =] theorem reportsRates_outcomeEvent (o : Outcome) :
    (outcomeEvent o).reportsRates = false := by
  cases o <;> rfl

/-- Of the log of some effects, what the publishers logged is what reports rates. The lifecycle
decides whether a stop is logged, and that reports none. -/
theorem filter_reportsRates_applyEffects (l : Lifecycle) (effects : List Effect)
    (h : ∀ e ∈ effects.filterMap Effect.event?, e.reportsRates = true) :
    (applyEffects l effects).2.filter Event.reportsRates = effects.filterMap Effect.event? := by
  induction effects generalizing l with
  | nil => rfl
  | cons effect effects ih =>
    cases effect with
    | log event =>
      simp only [List.filterMap_cons, Effect.event?_log, List.mem_cons, forall_eq_or_imp] at h
      simp [applyEffects, applyEffect, h.1, ih l h.2]
    | stop =>
      simp only [List.filterMap_cons, Effect.event?_stop] at h
      cases l <;> simp [applyEffects, applyEffect, List.filterMap_cons, ih _ h]

theorem filter_reportsRates_broadcast (l : Lifecycle) (d : Delivery) :
    (applyEffects l d.broadcast.effects).2.filter Event.reportsRates = d.logged := by
  rw [d.logged_eq]
  refine filter_reportsRates_applyEffects l _ fun e he => ?_
  exact d.reportsRates_of_mem_logged (d.logged_eq ▸ he)

/-! ## Stops from inside a tick -/

/-- Two lists of effects, one after the other. -/
theorem applyEffects_append (l : Lifecycle) (earlier later : List Effect) :
    applyEffects l (earlier ++ later) =
      ((applyEffects (applyEffects l earlier).1 later).1,
        (applyEffects l earlier).2 ++ (applyEffects (applyEffects l earlier).1 later).2) := by
  induction earlier generalizing l with
  | nil => rfl
  | cons effect effects ih => simp [applyEffects, ih]

/-- The effects of a tick stop the scheduler if one of them asks for it, and do nothing else to its
life. A second stop finds the scheduler stopped and leaves it so. -/
theorem applyEffects_lifecycle (l : Lifecycle) (effects : List Effect) :
    (applyEffects l effects).1 = if Effect.stop ∈ effects then .stopped else l := by
  induction effects generalizing l with
  | nil => rfl
  | cons effect effects ih =>
    cases effect with
    | log event => simp [applyEffects, applyEffect, ih]
    | stop => cases l <;> simp [applyEffects, applyEffect, ih]

/-- What is logged between the sample and the outcome of a tick: the events of the publishers, and
that the scheduler has been stopped. -/
theorem mem_applyEffects {l : Lifecycle} {effects : List Effect} {e : Event}
    (h : e ∈ (applyEffects l effects).2) : Effect.log e ∈ effects ∨ e = stoppedEvent := by
  induction effects generalizing l with
  | nil => cases h
  | cons effect effects ih =>
    rcases List.mem_append.mp h with hfirst | hrest
    · cases effect with
      | log event => simp_all
      | stop => cases l <;> simp_all
    · exact (ih hrest).imp_left (List.mem_cons_of_mem _)

theorem reportsRates_of_mem_broadcast {l : Lifecycle} {d : Delivery} {e : Event}
    (h : e ∈ (applyEffects l d.broadcast.effects).2) :
    e.reportsRates = true ∨ e = stoppedEvent := by
  refine (mem_applyEffects h).imp_left fun hlog => ?_
  refine d.reportsRates_of_mem_logged ?_
  rw [d.logged_eq]
  exact List.mem_filterMap.mpr ⟨_, hlog, rfl⟩

/-! ## One cycle -/

/-- An abort ends the cycle of a tick in an abort, whatever was published before it. -/
@[simp] theorem completionOf_andThen_aborted (o : Outcome) (reason : Abort) :
    completionOf (o.andThen (.aborted reason)) = .aborted := by
  cases o <;> rfl

section Cycle

variable {s : Scheduler} {source : Source}

theorem cycle_of_no_sample (h : source.sample? = none) :
    s.cycle source = (s, source.events,
      if source.read.isNone then .aborted else .returned (.ok .skipped)) := by
  unfold Source.sample? at h
  unfold cycle Source.events
  cases hr : source.read with
  | none => rfl
  | some reading => simp_all

theorem cycle_of_sample {x : Sample} (h : source.sample? = some x) :
    s.cycle source =
      let b := (s.deliver x).broadcast
      ({ s with
          usage := s.usage.update x
          publishers := b.publishers
          lifecycle := (applyEffects s.lifecycle b.effects).1 },
        (applyEffects s.lifecycle b.effects).2, completionOf b.outcome) := by
  have hevents := Source.events_of_sample? h
  unfold Source.sample? at h
  unfold Source.events at hevents
  unfold cycle
  cases hr : source.read with
  | none => simp [hr] at h
  | some reading =>
    rw [hr, Option.bind_some] at h
    split at h
    · cases h
    · next hreadable =>
      cases h
      have hnone : reading.events = [] := by simpa [hr] using hevents
      simp [hreadable, deliver, Delivery.broadcast, hnone]

/-- A tick with a sample delivers it. At its end it finds its worker in charge, and leaves it so,
unless a publisher has asked for a stop. -/
theorem tick_of_sample {w : Worker} {x : Sample} (hw : s.lifecycle = .running w)
    (hx : source.sample? = some x) :
    s.tick source =
      let d := s.deliver x
      ({ s with
          usage := d.usage
          publishers := d.broadcast.publishers
          lifecycle := if d.asksStop then .stopped else .running w },
        (applyEffects (.running w) d.broadcast.effects).2 ++
          outcomeEvent d.broadcast.outcome :: if d.asksStop then [exitingEvent] else []) := by
  rw [tick, cycle_of_sample hx, hw]
  simp only [report_completionOf, applyEffects_lifecycle, ← Delivery.asksStop_iff]
  split <;> simp [endTick, deliver]

/-- A tick without a sample reads at most, and logs that it has nothing to deliver. -/
theorem tick_of_no_sample {w : Worker} (hw : s.lifecycle = .running w)
    (hx : source.sample? = none) :
    s.tick source =
      (s, source.events ++ [if source.read.isNone then abortedEvent else skippedEvent]) := by
  have hsame : { s with lifecycle := .running w } = s := by rw [← hw]
  cases hbroken : source.read.isNone <;>
    simp [tick, cycle_of_no_sample hx, hbroken, reportEvent, endTick, hw, hsame]

end Cycle

/-! ## One step -/

/-- The worker whose tick can come: the one in charge, if no abort has ended its thread. -/
def liveWorker? (s : Scheduler) : Option Worker :=
  match s.lifecycle with
  | .running w => if w.aborted then none else some w
  | _ => none

section Step

variable (s : Scheduler) (step : Step)

theorem lifecycle_of_liveWorker? {w : Worker} (h : s.liveWorker? = some w) :
    s.lifecycle = .running w := by
  unfold liveWorker? at h
  cases hl : s.lifecycle <;> simp_all

theorem step_tick_of_live {w : Worker} (h : s.liveWorker? = some w) (source : Source) :
    s.step (.tick source) = ((s.tick source).1, (s.tick source).2, .ticked) := by
  unfold liveWorker? at h
  cases hl : s.lifecycle with
  | running v =>
    obtain ⟨hv, rfl⟩ : v.aborted = false ∧ v = w := by simpa [hl] using h
    simp [Scheduler.step, hl, hv]
  | _ => simp [hl] at h

/-- Without a worker to make it, a tick reads nothing and changes nothing. -/
theorem step_tick_of_not_live (h : s.liveWorker? = none) (source : Source) :
    (s.step (.tick source)).1 = s ∧ (s.step (.tick source)).2.1 = [] ∧
      (s.step (.tick source)).2.2 ≠ .ticked := by
  unfold liveWorker? at h
  cases hl : s.lifecycle <;> simp_all [Scheduler.step]

/-- A start changes no more than the lifecycle. -/
theorem start_eq (intervalMs : Option UInt64) (spawned : Except Fault Unit) :
    ∃ l, (s.start intervalMs spawned).1 = { s with lifecycle := l } := by
  unfold start startWith
  split
  · exact ⟨s.lifecycle, rfl⟩
  · split
    · exact ⟨s.lifecycle, rfl⟩
    · cases spawned <;> exact ⟨_, rfl⟩
    · cases spawned <;> exact ⟨_, rfl⟩

theorem sampleTaken?_tick (source : Source) :
    s.sampleTaken? (.tick source) = s.liveWorker?.bind fun _ => source.sample? := by
  cases h : s.liveWorker? with
  | none => simp [sampleTaken?, (s.step_tick_of_not_live h source).2.2]
  | some w => simp [sampleTaken?, s.step_tick_of_live h source, Step.source?]

theorem sampleTaken?_of_source?_eq_none (h : step.source? = none) :
    s.sampleTaken? step = none := by simp [sampleTaken?, h]

theorem delivery?_of_source?_eq_none (h : step.source? = none) : s.delivery? step = none := by
  simp [delivery?, s.sampleTaken?_of_source?_eq_none step h]

/-- A step that is no tick changes no more than the lifecycle. -/
theorem step_of_source?_eq_none (h : step.source? = none) :
    ∃ l, (s.step step).1 = { s with lifecycle := l } := by
  cases step with
  | start intervalMs spawned => exact s.start_eq intervalMs spawned
  | tick source => cases h
  | look => exact ⟨s.lifecycle, rfl⟩
  | _ => exact ⟨_, rfl⟩

/-- Of a new worker it is logged that it has started, and of a missing one nothing. -/
theorem eq_of_mem_employ {intervalMs : UInt64} {spawned : Except Fault Unit} {e : Event}
    (he : e ∈ (s.employ intervalMs spawned).2.1) : e = startedEvent intervalMs := by
  cases spawned with
  | ok => exact List.mem_singleton.mp he
  | error => cases he

/-- What a step logs that is no tick. -/
theorem event_of_mem_step (h : step.source? = none) {e : Event} (he : e ∈ (s.step step).2.1) :
    (∃ intervalMs, e = startedEvent intervalMs) ∨ e = restartingEvent ∨ e = exitingEvent ∨
      e = stoppedEvent ∨ ∃ w, s.lifecycle = .running w ∧ w.aborted = true ∧ e = strayAbortEvent := by
  cases step with
  | start intervalMs spawned =>
    simp only [Scheduler.step, start, startWith] at he
    split at he
    · cases he
    · cases hl : s.lifecycle with
      | created =>
        simp only [hl] at he
        exact .inl ⟨_, s.eq_of_mem_employ he⟩
      | running w =>
        simp only [hl, List.cons_append, List.mem_cons, List.mem_append] at he
        rcases he with rfl | hend | hnew
        · exact .inr (.inl rfl)
        · grind [mem_shutdown]
        · exact .inl ⟨_, s.eq_of_mem_employ hnew⟩
      | stopped => simp [hl] at he
  | stop =>
    cases hl : s.lifecycle with
    | running w =>
      simp only [Scheduler.step, stop, hl, List.mem_append, List.mem_singleton] at he
      grind [mem_shutdown]
    | _ => simp [Scheduler.step, stop, hl] at he
  | drop =>
    cases hl : s.lifecycle with
    | running w =>
      simp only [Scheduler.step, drop, hl] at he
      grind [mem_shutdown]
    | _ => simp [Scheduler.step, drop, hl] at he
  | tick source => cases h
  | look => cases he

/-- A step that is no tick reports no rates. -/
theorem reportsRates_of_mem_step (h : step.source? = none) {e : Event}
    (he : e ∈ (s.step step).2.1) : e.reportsRates = false := by
  rcases s.event_of_mem_step step h he with ⟨intervalMs, rfl⟩ | rfl | rfl | rfl | ⟨w, -, -, rfl⟩
  · exact reportsRates_startedEvent intervalMs
  · exact reportsRates_restartingEvent
  · exact reportsRates_exitingEvent
  · exact reportsRates_stoppedEvent
  · exact reportsRates_strayAbortEvent

/-- A tick that makes a delivery leaves its worker running unless a publisher asks for a stop. -/
theorem step_of_delivery {d : Delivery} (hd : s.delivery? step = some d) :
    ∃ w source, s.liveWorker? = some w ∧ step = .tick source ∧ d = s.deliver d.sample ∧
      s.step step =
        ({ s with
            usage := d.usage
            publishers := d.broadcast.publishers
            lifecycle := if d.asksStop then .stopped else .running w },
          (applyEffects (.running w) d.broadcast.effects).2 ++
            outcomeEvent d.broadcast.outcome :: if d.asksStop then [exitingEvent] else [],
          .ticked) := by
  obtain ⟨x, hx, rfl⟩ := Option.map_eq_some_iff.mp hd
  cases hs : step.source? with
  | none => rw [s.sampleTaken?_of_source?_eq_none step hs] at hx; cases hx
  | some source =>
    obtain rfl : step = .tick source := by
      cases step <;> simp_all [Step.source?]
    rw [sampleTaken?_tick] at hx
    obtain ⟨w, hw, hsample⟩ := Option.bind_eq_some_iff.mp hx
    refine ⟨w, source, hw, rfl, rfl, ?_⟩
    rw [s.step_tick_of_live hw source, tick_of_sample (s.lifecycle_of_liveWorker? hw) hsample]

/-- A tick that makes no delivery reads at most, and logs that it has nothing to deliver. -/
theorem step_tick_of_no_sample {w : Worker} {source : Source} (hw : s.liveWorker? = some w)
    (hx : source.sample? = none) :
    s.step (.tick source) =
      (s, source.events ++ [if source.read.isNone then abortedEvent else skippedEvent],
        .ticked) := by
  rw [s.step_tick_of_live hw source, tick_of_no_sample (s.lifecycle_of_liveWorker? hw) hx]

/-- A step that makes no delivery changes no more than the lifecycle, and reports no rates. -/
theorem step_of_no_delivery (hd : s.delivery? step = none) :
    (∃ l, (s.step step).1 = { s with lifecycle := l }) ∧
      ∀ e ∈ (s.step step).2.1, e.reportsRates = false := by
  cases hs : step.source? with
  | none =>
    exact ⟨s.step_of_source?_eq_none step hs, fun e he => s.reportsRates_of_mem_step step hs he⟩
  | some source =>
    obtain rfl : step = .tick source := by
      cases step <;> simp_all [Step.source?]
    cases hw : s.liveWorker? with
    | none =>
      obtain ⟨hstate, hlog, -⟩ := s.step_tick_of_not_live hw source
      exact ⟨⟨s.lifecycle, hstate⟩, by simp [hlog]⟩
    | some w =>
      have hx : source.sample? = none := by simpa [delivery?, sampleTaken?_tick, hw] using hd
      rw [s.step_tick_of_no_sample hw hx]
      refine ⟨⟨s.lifecycle, rfl⟩, fun e he => ?_⟩
      rcases List.mem_append.mp he with hread | hend
      · exact Source.reportsRates_of_mem_events hread
      · obtain rfl := List.mem_singleton.mp hend
        split <;> simp

theorem step_usage :
    (s.step step).1.usage = (s.sampleTaken? step).elim s.usage s.usage.update := by
  cases hx : s.sampleTaken? step with
  | none =>
    obtain ⟨⟨l, hl⟩, -⟩ := s.step_of_no_delivery step (by simp [delivery?, hx])
    rw [hl]
    rfl
  | some x =>
    obtain ⟨w, source, -, -, -, hstep⟩ := s.step_of_delivery step (d := s.deliver x)
      (by simp [delivery?, hx])
    rw [hstep]
    rfl

theorem step_publishers :
    (s.step step).1.publishers =
      (s.delivery? step).elim s.publishers fun d => d.broadcast.publishers := by
  cases hd : s.delivery? step with
  | none =>
    obtain ⟨⟨l, hl⟩, -⟩ := s.step_of_no_delivery step hd
    rw [hl]
    rfl
  | some d =>
    obtain ⟨w, source, -, -, -, hstep⟩ := s.step_of_delivery step hd
    rw [hstep]
    rfl

/-- Of the log of a step, what its delivery logs is what reports rates. -/
theorem filter_reportsRates_step :
    (s.step step).2.1.filter Event.reportsRates =
      (s.delivery? step).toList.flatMap Delivery.logged := by
  cases hd : s.delivery? step with
  | none =>
    rw [Option.toList_none, List.flatMap_nil, List.filter_eq_nil_iff]
    intro e he
    simp [(s.step_of_no_delivery step hd).2 e he]
  | some d =>
    obtain ⟨w, source, -, -, -, hstep⟩ := s.step_of_delivery step hd
    simp only [hstep, List.filter_append, filter_reportsRates_broadcast]
    split <;> simp

end Step

/-! ## Workers stay alive -/

/-- No abort has ended the thread of the worker in charge. -/
def IsIntact (s : Scheduler) : Prop := ∀ w, s.lifecycle = .running w → w.aborted = false

theorem isIntact_create (intervalMs : UInt64) (usage : Usage) (publishers : List Publisher) :
    (create intervalMs usage publishers).IsIntact := by
  intro w hw
  cases hw

theorem IsIntact.shutdown_eq {s : Scheduler} (h : s.IsIntact) {w : Worker}
    (hw : s.lifecycle = .running w) : shutdown w = [exitingEvent] := shutdown_of_live (h w hw)

/-- The thread of a new worker has not ended. -/
theorem aborted_of_employ {s : Scheduler} {intervalMs : UInt64} {spawned : Except Fault Unit}
    {w : Worker} (h : (s.employ intervalMs spawned).1.lifecycle = .running w) :
    w.aborted = false := by
  cases spawned with
  | ok =>
    obtain rfl : ⟨intervalMs, false⟩ = w := Lifecycle.running.inj h
    rfl
  | error => cases h

/-- A start puts a new worker in charge or none, and a tick catches every abort. -/
theorem IsIntact.step {s : Scheduler} (h : s.IsIntact) (step : Step) :
    (s.step step).1.IsIntact := by
  intro w hw
  cases step with
  | start intervalMs spawned =>
    simp only [Scheduler.step, start, startWith] at hw
    split at hw
    · exact h w hw
    · cases hl : s.lifecycle with
      | stopped => simp [hl] at hw
      | _ => exact aborted_of_employ (by simpa [hl] using hw)
  | stop => cases hw
  | drop => cases hw
  | look => exact h w hw
  | tick source =>
    cases hlive : s.liveWorker? with
    | none =>
      rw [(s.step_tick_of_not_live hlive source).1] at hw
      exact h w hw
    | some v =>
      have hv := s.lifecycle_of_liveWorker? hlive
      rw [s.step_tick_of_live hlive source] at hw
      cases hx : source.sample? with
      | none =>
        rw [tick_of_no_sample hv hx] at hw
        exact h w hw
      | some x =>
        rw [tick_of_sample hv hx] at hw
        dsimp only at hw
        split at hw
        · cases hw
        · exact h w (hv.trans hw)

end Scheduler

end IoWatch
