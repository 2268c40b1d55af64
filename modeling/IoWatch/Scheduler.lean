import IoWatch.Publisher
import IoWatch.Reading

/-!
# The sampling scheduler

A scheduler drives the cycle of reading a sample, taking it into the usage and publishing it. It is
created, runs a worker, and is stopped for good; starting it while it runs replaces its worker. A
tick of the worker is one cycle. Whatever goes wrong in a tick is reported and ends the tick only:
an abort is caught in the tick. One that got out of it would end the thread of the worker, and would
be found by whoever waits for that thread.

A publisher may ask the scheduler to stop while a tick of it is running. The request takes effect
at once, the tick is completed, and the worker ends after it.

## Main definitions

* `Lifecycle`, `Worker`: the states of a scheduler
* `Scheduler`, `Scheduler.start`, `Scheduler.stop`, `Scheduler.drop`, `Scheduler.tick`: a scheduler
  and what can be done with it; each logs what it does
* `Scheduler.finish`, `Scheduler.shutdown`: the end of a worker's thread, and of a worker that
  another thread waits for
* `Scheduler.cycle`, `Scheduler.report`: what a tick does, and what it makes of the end of that
* `SchedulerError`: why a start was refused
* `Step`, `Scheduler.step`, `Scheduler.run`: a script of such calls, and a scheduler that follows it
-/

namespace IoWatch

/-- Why a start was refused. -/
inductive SchedulerError where
  | alreadyStopped
  | zeroInterval
  | spawn (fault : Fault)
  deriving DecidableEq, Repr

namespace SchedulerError

/-- What is said of the error. -/
def message : SchedulerError → String
  | alreadyStopped => "scheduler has been stopped and cannot be restarted"
  | zeroInterval => "sampling interval must be positive"
  | spawn fault => "failed to spawn sampler thread: " ++ fault.message

/-- The fault behind the error. -/
def fault? : SchedulerError → Option Fault
  | spawn fault => some fault
  | _ => none

end SchedulerError

/-- A worker that ticks at a fixed rate, on a thread of its own. -/
structure Worker where
  /-- Milliseconds from one tick to the next. -/
  intervalMs : UInt64
  /-- Whether an abort that got out of a tick has ended its thread. -/
  aborted : Bool
  deriving DecidableEq, Repr

/-- The states of a scheduler. The last one is final. -/
inductive Lifecycle where
  | created
  | running (worker : Worker)
  | stopped
  deriving DecidableEq, Repr

/-- A sampling scheduler, the publishers it serves and the usage it keeps. -/
structure Scheduler where
  /-- The interval of a start that names none, in milliseconds. -/
  defaultIntervalMs : UInt64
  lifecycle : Lifecycle
  usage : Usage
  /-- Whom it hands each sample. -/
  publishers : List Publisher

namespace Scheduler

/-- A scheduler that has not been started. -/
def create (defaultIntervalMs : UInt64) (usage : Usage) (publishers : List Publisher) :
    Scheduler := ⟨defaultIntervalMs, .created, usage, publishers⟩

/-! ## Events -/

/-- A worker has started. -/
def startedEvent (intervalMs : UInt64) : Event :=
  ⟨.info, "Process I/O sampler started", [("interval_ms", .int intervalMs.toNat)]⟩

/-- A worker is about to be replaced. -/
def restartingEvent : Event := ⟨.info, "Restarting sampler with new interval", []⟩

/-- A worker has ended. -/
def exitingEvent : Event := ⟨.debug, "Sampler thread exiting", []⟩

/-- A scheduler has been stopped while it ran. -/
def stoppedEvent : Event := ⟨.info, "Process I/O sampler stopped", []⟩

/-- A tick has published its sample. -/
def publishedEvent : Event := ⟨.debug, "Sample published", []⟩

/-- A tick had no sample to publish. -/
def skippedEvent : Event := ⟨.debug, "Tick skipped, no sample", []⟩

/-- A tick could not publish its sample everywhere. -/
def failedEvent (error : PublishError) : Event :=
  ⟨.error, "Failed to publish process I/O sample", [("error", .text error.message)]⟩

/-- A tick has been aborted. -/
def abortedEvent : Event := ⟨.error, "Sampling tick panicked", []⟩

/-- The thread of a worker that was waited for has ended in an abort. -/
def strayAbortEvent : Event := ⟨.error, "Sampler thread panicked outside a tick", []⟩

/-! ## The end of a worker -/

/-- What the thread of a worker logs when it receives the stop message, and how it has ended then.
It says that it exits and returns, unless an abort has ended it before. -/
def finish (w : Worker) : List Event × Completion Unit :=
  if w.aborted then ([], .aborted) else ([exitingEvent], .returned ())

/-- What is logged of a thread that has been waited for. -/
def joined : Completion Unit → List Event
  | .returned () => []
  | .aborted => [strayAbortEvent]

/-- What is logged while a worker is shut down from another thread, which sends it the stop message
and waits for its thread to end. -/
def shutdown (w : Worker) : List Event :=
  let (logged, threadEnd) := finish w
  logged ++ joined threadEnd

/-! ## Calls -/

/-- A scheduler whose earlier worker, if it had one, is gone, after an attempt to put a new one in
place. Without a new worker it is as good as never started. -/
def employ (s : Scheduler) (intervalMs : UInt64) :
    Except Fault Unit → Scheduler × List Event × Except SchedulerError Unit
  | .ok () =>
    ({ s with lifecycle := .running ⟨intervalMs, false⟩ }, [startedEvent intervalMs], .ok ())
  | .error fault => ({ s with lifecycle := .created }, [], .error (.spawn fault))

/-- A start with an interval, given whether a new worker can be had. A worker that is running ends
before the new one starts; it is gone even if there is no new one. -/
def startWith (s : Scheduler) (intervalMs : UInt64) (spawned : Except Fault Unit) :
    Scheduler × List Event × Except SchedulerError Unit :=
  if intervalMs = 0 then (s, [], .error .zeroInterval)
  else
    match s.lifecycle with
    | .stopped => (s, [], .error .alreadyStopped)
    | .created => s.employ intervalMs spawned
    | .running w =>
      let (s, logged, result) := s.employ intervalMs spawned
      (s, restartingEvent :: shutdown w ++ logged, result)

/-- A start; without an interval, the default one is taken. -/
def start (s : Scheduler) (intervalMs : Option UInt64) (spawned : Except Fault Unit) :
    Scheduler × List Event × Except SchedulerError Unit :=
  s.startWith (intervalMs.getD s.defaultIntervalMs) spawned

/-- A stop from outside. A worker that is running ends first. -/
def stop (s : Scheduler) : Scheduler × List Event :=
  ({ s with lifecycle := .stopped },
    match s.lifecycle with
    | .running w => shutdown w ++ [stoppedEvent]
    | _ => [])

/-- The end of the scheduler itself. A worker that is running ends with it. -/
def drop (s : Scheduler) : Scheduler × List Event :=
  ({ s with lifecycle := .stopped },
    match s.lifecycle with
    | .running w => shutdown w
    | _ => [])

/-- A lifecycle after one effect of a tick, and what is logged. A stop from inside a tick does not
wait for the worker; only the first one finds it running. -/
def applyEffect : Lifecycle → Effect → Lifecycle × List Event
  | l, .log event => (l, [event])
  | .running _, .stop => (.stopped, [stoppedEvent])
  | _, .stop => (.stopped, [])

/-- A lifecycle after the effects of a tick, and what is logged. -/
def applyEffects : Lifecycle → List Effect → Lifecycle × List Event
  | l, [] => (l, [])
  | l, e :: es =>
    let (l, first) := applyEffect l e
    let (l, rest) := applyEffects l es
    (l, first ++ rest)

/-- What a cycle does that neither fails nor is aborted. -/
inductive CycleResult where
  | published
  /-- There was no sample to publish. -/
  | skipped
  deriving DecidableEq, Repr

/-- The end of a cycle whose publishers have a common outcome. -/
def completionOf : Outcome → Completion (Except PublishError CycleResult)
  | .published => .returned (.ok .published)
  | .failed error => .returned (.error error)
  | .aborted _ => .aborted

/-- One cycle of a tick: read, take into the usage, publish. -/
def cycle (s : Scheduler) (source : Source) :
    Scheduler × List Event × Completion (Except PublishError CycleResult) :=
  match source.read with
  | none => (s, [], .aborted)
  | some reading =>
    if reading.sample.isUnreadable then (s, reading.events, .returned (.ok .skipped))
    else
      let usage := s.usage.update reading.sample
      let broadcast := publishAll s.publishers usage reading.sample
      let (lifecycle, logged) := applyEffects s.lifecycle broadcast.effects
      ({ s with usage, publishers := broadcast.publishers, lifecycle },
        reading.events ++ logged, completionOf broadcast.outcome)

/-- The event that reports a cycle, of which nothing is left if it was aborted. -/
def reportEvent : Option (Except PublishError CycleResult) → Event
  | some (.ok .published) => publishedEvent
  | some (.ok .skipped) => skippedEvent
  | some (.error error) => failedEvent error
  | none => abortedEvent

/-- What a tick makes of the end of its cycle: what it logs, and how it ends itself. It catches an
abort of the cycle. -/
def report (cycleEnd : Completion (Except PublishError CycleResult)) :
    List Event × Completion Unit :=
  match cycleEnd.caught with
  | .returned result => ([reportEvent result], .returned ())
  | .aborted => ([], .aborted)

@[simp] theorem report_returned (result : Except PublishError CycleResult) :
    report (.returned result) = ([reportEvent (some result)], .returned ()) := rfl

@[simp] theorem report_aborted : report .aborted = ([abortedEvent], .returned ()) := rfl

/-- Whatever comes of a cycle, its tick returns. -/
@[simp, grind =] theorem report_snd (cycleEnd : Completion (Except PublishError CycleResult)) :
    (report cycleEnd).2 = .returned () := by
  cases cycleEnd <;> rfl

/-- A lifecycle after a tick of its worker, and what the end of the worker logs. An abort that gets
out of the tick ends the thread without a word, and is found by who waits for the thread later. -/
def endTick : Lifecycle → Completion Unit → Lifecycle × List Event
  | .running w, .returned () => (.running w, [])
  | l, .returned () => (l, [exitingEvent])
  | .running w, .aborted => (.running { w with aborted := true }, [])
  | l, .aborted => (l, [])

/-- A tick of the worker of a running scheduler. How its cycle ended is logged before the worker
ends, if it does. -/
def tick (s : Scheduler) (source : Source) : Scheduler × List Event :=
  let (s, logged, cycleEnd) := s.cycle source
  let (reported, tickEnd) := report cycleEnd
  let (lifecycle, ended) := endTick s.lifecycle tickEnd
  ({ s with lifecycle }, logged ++ reported ++ ended)

end Scheduler

/-! ## Scripts -/

/-- One step of a script. -/
inductive Step where
  /-- A start, with an interval or with the default one, given whether a new worker can be had. -/
  | start (intervalMs : Option UInt64) (spawned : Except Fault Unit)
  | stop
  | look
  | drop
  /-- The time of a tick comes. The worker makes it, if there is one whose thread has not ended. -/
  | tick (source : Source)

/-- What a step answers. -/
inductive Answer where
  | none
  | done
  | refused (error : SchedulerError)
  | dropped
  | ticked
  | noWorker
  deriving DecidableEq

namespace Scheduler

/-- The answer to a start. -/
def answerOf : Except SchedulerError Unit → Answer
  | .ok () => .done
  | .error e => .refused e

/-- A scheduler after a step, what was logged, and the answer. -/
def step (s : Scheduler) : Step → Scheduler × List Event × Answer
  | .start intervalMs spawned =>
    let (s, logged, result) := s.start intervalMs spawned
    (s, logged, answerOf result)
  | .stop => let (s, logged) := s.stop; (s, logged, .done)
  | .look => (s, [], .none)
  | .drop => let (s, logged) := s.drop; (s, logged, .dropped)
  | .tick source =>
    match s.lifecycle with
    | .running w =>
      if w.aborted then (s, [], .noWorker)
      else let (s, logged) := s.tick source; (s, logged, .ticked)
    | _ => (s, [], .noWorker)

/-- A scheduler after a list of steps, and all that was logged. -/
def run (s : Scheduler) : List Step → Scheduler × List Event
  | [] => (s, [])
  | step :: steps =>
    let (s, logged, _) := s.step step
    let (s, rest) := s.run steps
    (s, logged ++ rest)

end Scheduler

end IoWatch
