import IoWatch.Scheduler
import Mathlib.Logic.Function.Basic
import Mathlib.Logic.Relation

/-!
# The scheduler among threads

A scheduler is called from any number of threads while its workers tick, and a publisher may call
it back from inside a tick. Here the calls and the ticks are taken apart into the steps between
which threads can meet: at the lock on the lifecycle, at the message and the end of a worker, at the
usage and at the publishers.

A start keeps the lock until it returns, also while it waits for the worker that it replaces. A stop
lets the lock go before it waits. Neither waits for a worker whose thread it runs on.

## Main definitions

* `Thread`, `Request`, `Reply`: who calls the scheduler, for what, and with what result
* `Standing`: what the lock guards
* `Point`, `Phase`: how far a call and a tick have come
* `Config`: a scheduler with all its threads
* `CallStep`, `TickStep`, `Act`: how a thread goes on with what it has begun
* `Begin`, `Step`: what else can happen, and all that can happen
* `Reachable`: what can become of a new scheduler
-/

namespace IoWatch

namespace Threads

open Function (update)

/-- A thread that can call the scheduler: one of those outside, or a worker. Workers are counted in
the order in which they are spawned. -/
inductive Thread (n : Nat) where
  /-- A thread outside the scheduler. -/
  | caller (i : Fin n)
  /-- The thread of a worker. -/
  | worker (k : Nat)
  deriving DecidableEq

/-- A call of the scheduler. -/
inductive Request where
  | start (intervalMs : UInt64)
  | stop
  | look
  deriving DecidableEq

/-- What the lock guards. -/
inductive Standing where
  /-- No worker is in charge, and none was ever stopped for good. -/
  | created
  /-- A worker is in charge. -/
  | running (k : Nat)
  | stopped
  deriving DecidableEq

/-- The state that a look reports. -/
inductive State where
  | created
  | running
  | stopped
  deriving DecidableEq

/-- The state as it is reported. -/
def Standing.state : Standing → State
  | created => .created
  | running _ => .running
  | stopped => .stopped

/-- What a call returns. -/
inductive Reply where
  | done
  | refused (error : SchedulerError)
  | saw (state : State)
  deriving DecidableEq

/-- What a worker is shut down for. -/
inductive Purpose where
  | replace (intervalMs : UInt64)
  | stop
  deriving DecidableEq

/-- The point that a call has come to. -/
inductive Point where
  /-- It has been made. It needs the lock, unless it is refused for its interval. -/
  | called (r : Request)
  /-- It has the lock and looks at what it guards. -/
  | locked (r : Request)
  /-- A start has found the scheduler stopped, and has to write that back. -/
  | foundStopped (intervalMs : UInt64)
  /-- A stop has taken the worker in charge, and still has the lock. -/
  | taken (k : Nat)
  /-- It is going to send the stop message to the worker it took. -/
  | telling (purpose : Purpose) (k : Nat)
  /-- It waits for the end of that worker. -/
  | joining (purpose : Purpose) (k : Nat)
  /-- A start is going to spawn a worker. -/
  | hiring (intervalMs : UInt64)
  /-- A start has spawned a worker, and is going to put it in charge. -/
  | hired (intervalMs : UInt64) (k : Nat)
  /-- It is going to let the lock go and return. -/
  | leaving (r : Request) (reply : Reply)
  /-- A stop is done with the worker it took, and is going to return. -/
  | stopping
  deriving DecidableEq

/-- The point of a call that is done with the worker it took. -/
def Purpose.relieved : Purpose → Point
  | replace intervalMs => .hiring intervalMs
  | stop => .stopping

/-- What a publisher does in a call, piece by piece. -/
inductive Deed where
  | log (event : Event)
  | ask (r : Request)

/-- An effect as a deed. -/
def Deed.ofEffect : Effect → Deed
  | .log event => log event
  | .stop => ask .stop

/-- How far a worker has come. -/
inductive Phase where
  | unborn
  /-- Its tick reads. -/
  | reading
  /-- Its tick has a sample for the usage. -/
  | updating (x : Sample)
  /-- Its tick has served the publishers before a position, with a common outcome. -/
  | publishing (x : Sample) (p : Nat) (soFar : Outcome)
  /-- It is inside a call of the publisher at a position, which still has to do some deeds before it
  ends. -/
  | serving (x : Sample) (p : Nat) (soFar : Outcome) (todo : List Deed) (outcome : Outcome)
  /-- Its tick is over, and it waits for the stop message or its next tick. -/
  | waiting
  /-- Its thread has ended. -/
  | ended (threadEnd : Completion Unit)

/-- The thread of a worker has ended, in whatever way. -/
def Phase.HasEnded (x : Phase) : Prop := ∃ threadEnd, x = ended threadEnd

@[simp] theorem Phase.hasEnded_ended (threadEnd : Completion Unit) : (ended threadEnd).HasEnded :=
  ⟨threadEnd, rfl⟩

/-- How far a worker has come with the end of its tick. An abort that gets out of the tick ends the
thread. -/
def Phase.afterTick : Completion Unit → Phase
  | .returned () => waiting
  | .aborted => ended .aborted

@[simp, grind =] theorem Phase.afterTick_returned : afterTick (.returned ()) = waiting := rfl

/-- A scheduler with `n` threads outside it and all its workers. -/
structure Config (n : Nat) where
  /-- The thread that has the lock. -/
  lock : Option (Thread n)
  standing : Standing
  /-- How many workers have been spawned. -/
  spawned : Nat
  /-- Whether the stop message has been sent to a worker. -/
  told : Nat → Bool
  /-- How far a worker has come. -/
  phase : Nat → Phase
  /-- The point that the call of a thread has come to, if it is inside one. -/
  point : Thread n → Option Point
  usage : Usage
  /-- Whom the workers hand each sample. -/
  publishers : List Publisher
  log : List Event
  /-- The calls that have returned, oldest first. -/
  returned : List (Thread n × Request × Reply)

/-- A scheduler that has not been started, and that nobody calls. -/
def Config.create (n : Nat) (usage : Usage) (publishers : List Publisher) : Config n where
  lock := none
  standing := .created
  spawned := 0
  told := fun _ => false
  phase := fun _ => .unborn
  point := fun _ => none
  usage := usage
  publishers := publishers
  log := []
  returned := []

/-! ## Calls -/

/-- A step of the call that a thread is inside of. -/
inductive CallStep {n : Nat} (t : Thread n) (c : Config n) : Config n → Prop
  /-- A start without an interval is refused at once. -/
  | refuse (h : c.point t = some (.called (.start 0))) : CallStep t c { c with
      point := update c.point t none
      returned := c.returned ++ [(t, .start 0, .refused .zeroInterval)] }
  /-- Any other call takes the lock. -/
  | acquire (r : Request) (h : c.point t = some (.called r)) (hr : r ≠ .start 0)
      (hlock : c.lock = none) : CallStep t c { c with
      lock := some t
      point := update c.point t (some (.locked r)) }
  /-- A start finds that there is no worker. -/
  | startAnew (intervalMs : UInt64) (h : c.point t = some (.locked (.start intervalMs)))
      (hs : c.standing = .created) : CallStep t c { c with
      point := update c.point t (some (.hiring intervalMs)) }
  /-- A start takes the worker it is to replace. -/
  | startInstead (intervalMs : UInt64) (k : Nat)
      (h : c.point t = some (.locked (.start intervalMs)))
      (hs : c.standing = .running k) : CallStep t c { c with
      standing := .created
      point := update c.point t (some (.telling (.replace intervalMs) k))
      log := c.log ++ [Scheduler.restartingEvent] }
  /-- A start finds the scheduler stopped, and has overwritten that. -/
  | startTooLate (intervalMs : UInt64) (h : c.point t = some (.locked (.start intervalMs)))
      (hs : c.standing = .stopped) : CallStep t c { c with
      standing := .created
      point := update c.point t (some (.foundStopped intervalMs)) }
  /-- It writes it back. -/
  | putBack (intervalMs : UInt64) (h : c.point t = some (.foundStopped intervalMs)) :
      CallStep t c { c with
      standing := .stopped
      point := update c.point t (some
        (.leaving (.start intervalMs) (.refused .alreadyStopped))) }
  /-- A stop takes the worker in charge. -/
  | stopWorker (k : Nat) (h : c.point t = some (.locked .stop)) (hs : c.standing = .running k) :
      CallStep t c { c with
      standing := .stopped
      point := update c.point t (some (.taken k)) }
  /-- A stop finds no worker in charge. -/
  | stopNobody (h : c.point t = some (.locked .stop)) (hs : ∀ k, c.standing ≠ .running k) :
      CallStep t c { c with
      standing := .stopped
      point := update c.point t (some (.leaving .stop .done)) }
  /-- A look sees the state. -/
  | see (h : c.point t = some (.locked .look)) : CallStep t c { c with
      point := update c.point t (some (.leaving .look (.saw c.standing.state))) }
  /-- A stop lets the lock go before it ends the worker it took. -/
  | letGo (k : Nat) (h : c.point t = some (.taken k)) : CallStep t c { c with
      lock := none
      point := update c.point t (some (.telling .stop k)) }
  /-- The stop message is sent to another thread, which will be waited for. -/
  | tellOther (purpose : Purpose) (k : Nat) (h : c.point t = some (.telling purpose k))
      (ht : t ≠ .worker k) : CallStep t c { c with
      told := update c.told k true
      point := update c.point t (some (.joining purpose k)) }
  /-- The stop message is sent to the own thread, which is not waited for. -/
  | tellSelf (purpose : Purpose) (k : Nat) (h : c.point t = some (.telling purpose k))
      (ht : t = .worker k) : CallStep t c { c with
      told := update c.told k true
      point := update c.point t (some purpose.relieved) }
  /-- The thread of the worker has ended. -/
  | join {threadEnd : Completion Unit} (purpose : Purpose) (k : Nat)
      (h : c.point t = some (.joining purpose k)) (hended : c.phase k = .ended threadEnd) :
      CallStep t c { c with
      point := update c.point t (some purpose.relieved)
      log := c.log ++ Scheduler.joined threadEnd }
  /-- A worker is spawned. Its first tick is due at once. -/
  | spawn (intervalMs : UInt64) (h : c.point t = some (.hiring intervalMs)) :
      CallStep t c { c with
      spawned := c.spawned + 1
      phase := update c.phase c.spawned .reading
      point := update c.point t (some (.hired intervalMs c.spawned)) }
  /-- No worker can be spawned. -/
  | spawnFails (intervalMs : UInt64) (fault : Fault)
      (h : c.point t = some (.hiring intervalMs)) : CallStep t c { c with
      point := update c.point t (some (.leaving (.start intervalMs) (.refused (.spawn fault)))) }
  /-- The new worker is put in charge. -/
  | install (intervalMs : UInt64) (k : Nat) (h : c.point t = some (.hired intervalMs k)) :
      CallStep t c { c with
      standing := .running k
      point := update c.point t (some (.leaving (.start intervalMs) .done))
      log := c.log ++ [Scheduler.startedEvent intervalMs] }
  /-- The lock is let go, and the call returns. -/
  | leave (r : Request) (reply : Reply) (h : c.point t = some (.leaving r reply)) :
      CallStep t c { c with
      lock := none
      point := update c.point t none
      returned := c.returned ++ [(t, r, reply)] }
  /-- A stop that took a worker returns. -/
  | stopped (h : c.point t = some .stopping) : CallStep t c { c with
      point := update c.point t none
      log := c.log ++ [Scheduler.stoppedEvent]
      returned := c.returned ++ [(t, .stop, .done)] }

/-! ## Ticks -/

section Steps

variable {n : Nat} (asks : Publisher → Sample → List Request)

/-- What a publisher does in a call: its effects, and then what else it asks of the scheduler. -/
def deeds (publisher : Publisher) (usage : Usage) (x : Sample) : List Deed :=
  (publisher.publish usage x).effects.map .ofEffect ++ (asks publisher x).map .ask

/-- A step of a worker that is not inside a call of the scheduler. -/
inductive TickStep (k : Nat) (c : Config n) : Config n → Prop
  /-- Its source is broken. -/
  | readBroken (source : Source) (hc : c.point (.worker k) = none) (h : c.phase k = .reading)
      (hread : source.read = none) : TickStep k c { c with
      phase := update c.phase k (.afterTick (Scheduler.report .aborted).2)
      log := c.log ++ (Scheduler.report .aborted).1 }
  /-- Its source gives no sample. -/
  | readNothing (source : Source) (reading : Reading) (hc : c.point (.worker k) = none)
      (h : c.phase k = .reading) (hread : source.read = some reading)
      (hx : reading.sample.isUnreadable = true) : TickStep k c { c with
      phase := update c.phase k (.afterTick (Scheduler.report (.returned (.ok .skipped))).2)
      log := c.log ++ (reading.events ++ (Scheduler.report (.returned (.ok .skipped))).1) }
  /-- Its source gives a sample. -/
  | readSample (source : Source) (reading : Reading) (hc : c.point (.worker k) = none)
      (h : c.phase k = .reading) (hread : source.read = some reading)
      (hx : reading.sample.isUnreadable = false) : TickStep k c { c with
      phase := update c.phase k (.updating reading.sample)
      log := c.log ++ reading.events }
  /-- The sample is taken into the usage. -/
  | takeIn (x : Sample) (hc : c.point (.worker k) = none) (h : c.phase k = .updating x) :
      TickStep k c { c with
      usage := c.usage.update x
      phase := update c.phase k (.publishing x 0 .published) }
  /-- The next publisher is called. -/
  | publish (x : Sample) (p : Nat) (soFar : Outcome) (publisher : Publisher)
      (hc : c.point (.worker k) = none) (h : c.phase k = .publishing x p soFar)
      (hp : c.publishers[p]? = some publisher) : TickStep k c { c with
      publishers := c.publishers.set p (publisher.publish c.usage x).next
      phase := update c.phase k (.serving x p soFar (deeds asks publisher c.usage x)
        (publisher.publish c.usage x).outcome) }
  /-- It logs an event. -/
  | serveLog (x : Sample) (p : Nat) (soFar outcome : Outcome) (event : Event) (todo : List Deed)
      (hc : c.point (.worker k) = none)
      (h : c.phase k = .serving x p soFar (.log event :: todo) outcome) : TickStep k c { c with
      phase := update c.phase k (.serving x p soFar todo outcome)
      log := c.log ++ [event] }
  /-- It calls the scheduler. -/
  | serveAsk (x : Sample) (p : Nat) (soFar outcome : Outcome) (r : Request) (todo : List Deed)
      (hc : c.point (.worker k) = none)
      (h : c.phase k = .serving x p soFar (.ask r :: todo) outcome) : TickStep k c { c with
      phase := update c.phase k (.serving x p soFar todo outcome)
      point := update c.point (.worker k) (some (.called r)) }
  /-- It returns. -/
  | serveDone (x : Sample) (p : Nat) (soFar outcome : Outcome) (hc : c.point (.worker k) = none)
      (h : c.phase k = .serving x p soFar [] outcome)
      (ho : ∀ reason, outcome ≠ .aborted reason) : TickStep k c { c with
      phase := update c.phase k (.publishing x (p + 1) (soFar.andThen outcome)) }
  /-- It aborts, which ends the cycle of the tick. -/
  | serveAbort (x : Sample) (p : Nat) (soFar : Outcome) (reason : Abort)
      (hc : c.point (.worker k) = none)
      (h : c.phase k = .serving x p soFar [] (.aborted reason)) : TickStep k c { c with
      phase := update c.phase k (.afterTick (Scheduler.report .aborted).2)
      log := c.log ++ (Scheduler.report .aborted).1 }
  /-- All publishers are served. -/
  | finish (x : Sample) (p : Nat) (soFar : Outcome) (hc : c.point (.worker k) = none)
      (h : c.phase k = .publishing x p soFar) (hp : c.publishers[p]? = none) :
      TickStep k c { c with
      phase := update c.phase k
        (.afterTick (Scheduler.report (Scheduler.completionOf soFar)).2)
      log := c.log ++ (Scheduler.report (Scheduler.completionOf soFar)).1 }
  /-- It receives the stop message, and returns. -/
  | exit (hc : c.point (.worker k) = none) (h : c.phase k = .waiting) (ht : c.told k = true) :
      TickStep k c { c with
      phase := update c.phase k (.ended (.returned ()))
      log := c.log ++ [Scheduler.exitingEvent] }

/-! ## Runs -/

/-- A thread goes on with a call or a tick, or receives the message it was sent. -/
inductive Act : Thread n → Config n → Config n → Prop
  /-- With a call. -/
  | call {t : Thread n} {c c' : Config n} (h : CallStep t c c') : Act t c c'
  /-- With a tick. -/
  | tick {k : Nat} {c c' : Config n} (h : TickStep asks k c c') : Act (.worker k) c c'

/-- Something new begins. -/
inductive Begin (c : Config n) : Config n → Prop
  /-- A thread outside calls the scheduler. -/
  | call (i : Fin n) (r : Request) (h : c.point (.caller i) = none) : Begin c { c with
      point := update c.point (.caller i) (some (.called r)) }
  /-- The time of a waiting worker comes. -/
  | tick (k : Nat) (hc : c.point (.worker k) = none) (h : c.phase k = .waiting)
      (ht : c.told k = false) : Begin c { c with phase := update c.phase k .reading }

/-- All that can happen. -/
inductive Step (c c' : Config n) : Prop
  /-- A thread goes on. -/
  | act (t : Thread n) (h : Act asks t c c')
  /-- Something new begins. -/
  | begin (h : Begin c c')

/-- What can become of a scheduler. -/
def Steps : Config n → Config n → Prop := Relation.ReflTransGen (Step asks)

/-- What can become of a new scheduler. -/
def Reachable (c : Config n) : Prop := ∃ usage publishers, Steps asks (.create n usage publishers) c

end Steps

end Threads

end IoWatch
