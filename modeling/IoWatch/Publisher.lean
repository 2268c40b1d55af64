import IoWatch.Event
import IoWatch.Publisher.Sink
import IoWatch.Text.Utf8
import IoWatch.Usage

/-!
# Publishers

A publisher is handed every sample after it has been taken into the usage. It may log, write to a
sink, ask the scheduler that drives it to stop, fail, or abort. A list of publishers is served in
order: a failure does not keep the later ones from being served, an abort does.

## Main definitions

* `PublishError`, `Outcome`: how a call can fail, and how it ends
* `Effect`: what a call does to the outside besides its own state
* `Publisher`, `Publisher.publish`: the kinds of publisher, and one call
* `Call`: the publisher after a call, its effects and its outcome
* `Broadcast`, `publishAll`: the same for a call of every publisher of a list
-/

namespace IoWatch

/-- Why a publisher failed. -/
inductive PublishError where
  | write (fault : Fault)
  /-- A snapshot could not be turned into text. The text of a snapshot of this library always can be
  made, so this is left to publishers of other kinds. -/
  | serialize (reason : String)
  deriving DecidableEq, Repr

namespace PublishError

/-- What is said of the error. -/
def message : PublishError → String
  | write fault => "publish write failed: " ++ fault.message
  | serialize reason => "snapshot serialization failed: " ++ reason

/-- The fault of a sink behind the error, if there is one. -/
def fault? : PublishError → Option Fault
  | write fault => some fault
  | serialize _ => none

end PublishError

/-- How a call of a publisher ends. -/
inductive Outcome where
  | published
  | failed (error : PublishError)
  /-- The call ends where it is. -/
  | aborted (reason : Abort)
  deriving DecidableEq

/-- The outcome of a call that only a fault of a sink can spoil. -/
def Outcome.ofWrite : Except Fault Unit → Outcome
  | .ok () => published
  | .error fault => failed (.write fault)

/-- What a call does to the outside besides the publisher's own state. -/
inductive Effect where
  | log (event : Event)
  /-- It asks the scheduler that drives it to stop. -/
  | stop
  deriving DecidableEq

/-- What a recorder does in one of its calls, after it has recorded the sample. -/
structure Reaction where
  stops : Bool
  outcome : Outcome
  deriving DecidableEq

/-- A publisher that keeps every sample and reacts by its plan. -/
structure Recorder where
  seen : List Sample
  /-- Its reaction in each of its calls, counted from one. -/
  plan : Nat → Reaction

/-- The kinds of publisher. -/
inductive Publisher where
  | rateLog
  | jsonLines (sink : Sink)
  /-- Keeps every sample and reacts by its plan. -/
  | recorder (r : Recorder)

/-- The publisher after a call, its effects and its outcome. -/
structure Call where
  /-- The publisher after the call. -/
  next : Publisher
  /-- What the call did, in order. -/
  effects : List Effect
  outcome : Outcome

/-- The event that reports the derived rates. -/
def ratesEvent (sample : Sample) (s : Snapshot) : Event :=
  ⟨.info, "Process I/O sampled",
    [("timestamp_ms", .int sample.timestampMs.toInt), ("read_bytes", .int sample.readBytes.toInt),
      ("write_bytes", .int sample.writeBytes.toInt), ("read_kb_s", .number s.recent.readKb),
      ("write_kb_s", .number s.recent.writeKb), ("lifetime_read_kb_s", .number s.lifetime.readKb),
      ("lifetime_write_kb_s", .number s.lifetime.writeKb)]⟩

/-- A sink after a line, its end and a flush, each tried only if the one before succeeded. -/
def Sink.writeLine (sink : Sink) (line : List Char) : Sink × Except Fault Unit :=
  match sink.write (Utf8.encode line) with
  | (sink, .error fault) => (sink, .error fault)
  | (sink, .ok ()) =>
    match sink.write (Utf8.encode ['\n']) with
    | (sink, .error fault) => (sink, .error fault)
    | (sink, .ok ()) => (sink, sink.flush)

/-- An unlimited sink takes a line and its end. -/
theorem Sink.writeLine_of_unlimited {sink : Sink} (h : sink.capacity = none) (line : List Char) :
    sink.writeLine line =
      ({ sink with written := sink.written ++ Utf8.encode (line ++ ['\n']) }, sink.flush) := by
  have hline := write_unlimited h (Utf8.encode line)
  have hend := write_unlimited (s := { sink with written := sink.written ++ Utf8.encode line }) h
    (Utf8.encode ['\n'])
  simp only [writeLine, hline, hend]
  simp [Utf8.encode, flush]

namespace Publisher

/-- One call of a publisher. The rates come from the usage, not from the sample handed over. -/
def publish (p : Publisher) (usage : Usage) (sample : Sample) : Call :=
  match p with
  | rateLog =>
    match usage.snapshot with
    | .ok s => ⟨rateLog, [.log (ratesEvent sample s)], .published⟩
    | .error reason => ⟨rateLog, [], .aborted reason⟩
  | jsonLines sink =>
    match usage.snapshot with
    | .ok s =>
      let (sink, result) := sink.writeLine s.line
      ⟨jsonLines sink, [], .ofWrite result⟩
    | .error reason => ⟨jsonLines sink, [], .aborted reason⟩
  | recorder r =>
    let seen := r.seen ++ [sample]
    let reaction := r.plan seen.length
    ⟨recorder { r with seen }, if reaction.stops then [.stop] else [], reaction.outcome⟩

end Publisher

/-- The publishers after a sample was handed to them, their effects and the common outcome. -/
structure Broadcast where
  /-- The publishers after their calls. -/
  publishers : List Publisher
  /-- What the calls did, in order. -/
  effects : List Effect
  outcome : Outcome

/-- The outcome of two calls in a row: an abort of either, else the first failure. -/
def Outcome.andThen : Outcome → Outcome → Outcome
  | aborted reason, _ => aborted reason
  | _, aborted reason => aborted reason
  | failed error, _ => failed error
  | published, later => later

/-- Hands a sample to the publishers of a list in order. All are served unless one aborts; the
outcome is an abort if there is one, else the first failure. -/
def publishAll : List Publisher → Usage → Sample → Broadcast
  | [], _, _ => ⟨[], [], .published⟩
  | p :: ps, usage, sample =>
    let call := p.publish usage sample
    match call.outcome with
    | .aborted reason => ⟨call.next :: ps, call.effects, .aborted reason⟩
    | outcome =>
      let rest := publishAll ps usage sample
      ⟨call.next :: rest.publishers, call.effects ++ rest.effects, outcome.andThen rest.outcome⟩

end IoWatch
