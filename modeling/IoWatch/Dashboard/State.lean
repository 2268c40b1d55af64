import IoWatch.Usage

/-!
# Dashboard state

What the dashboard shows: the snapshot of its last tick, a history of the recent rates with one
entry for each tick, oldest first and of fixed length, and the greatest rate of each counter with
the time of day at which it was first seen.

## Main definitions

* `ClockTime`, `Peak`, `Peak.offer`: times of day, and the greatest rate so far
* `Dashboard`, `Dashboard.create`: the state, and the one before any tick
* `Dashboard.tick`: the state after a tick, and the abort that cut it short, if one did
* `Dashboard.totals`, `Dashboard.hasSample`: what is read off the last sample
-/

namespace IoWatch

/-- A time of day, in seconds since midnight. -/
structure ClockTime where
  seconds : Nat
  deriving DecidableEq, Repr

/-- The greatest rate seen so far and when it was first seen. -/
structure Peak where
  kb : Binary64
  seenAt : ClockTime
  deriving DecidableEq

/-- The peak after a rate; only a greater one replaces it. -/
def Peak.offer (p : Peak) (kb : Binary64) (now : ClockTime) : Peak :=
  if p.kb < kb then ⟨kb, now⟩ else p

/-- What the dashboard shows. -/
structure Dashboard where
  pid : UInt32
  intervalMs : UInt64
  /-- Kilobytes read per second at each tick, oldest first. -/
  readHistory : List Binary64
  /-- Kilobytes written per second at each tick, oldest first. -/
  writeHistory : List Binary64
  readPeak : Peak
  writePeak : Peak
  /-- What was known at the last tick. -/
  snapshot : Snapshot
  deriving DecidableEq

namespace Dashboard

/-- The state before any tick: histories of zeros, peaks of zero. -/
def create (pid : UInt32) (intervalMs : UInt64) (historyLength : Nat) (usage : Usage)
    (now : ClockTime) : Except Abort Dashboard := do
  let snapshot ← usage.snapshot
  let history := List.replicate historyLength 0
  return ⟨pid, intervalMs, history, history, ⟨0, now⟩, ⟨0, now⟩, snapshot⟩

/-- A history after one more entry; the oldest one is dropped, which a history of none aborts. -/
def roll (history : List Binary64) (kb : Binary64) : Except Abort (List Binary64) :=
  match history with
  | [] => .error .emptyHistory
  | _ :: rest => .ok (rest ++ [kb])

/-- The state after a tick. The snapshot is replaced first, then the histories roll, then the peaks
are offered the new rates; an abort leaves what was done before it. -/
def tick (d : Dashboard) (usage : Usage) (now : ClockTime) : Dashboard × Except Abort Unit :=
  match usage.snapshot with
  | .error reason => (d, .error reason)
  | .ok snapshot =>
    let d := { d with snapshot }
    let rates := snapshot.recent
    match roll d.readHistory rates.readKb with
    | .error reason => (d, .error reason)
    | .ok readHistory =>
      let d := { d with readHistory }
      match roll d.writeHistory rates.writeKb with
      | .error reason => (d, .error reason)
      | .ok writeHistory =>
        ({ d with
            writeHistory
            readPeak := d.readPeak.offer rates.readKb now
            writePeak := d.writePeak.offer rates.writeKb now }, .ok ())

/-- The rates between the last two samples. -/
def recent (d : Dashboard) : Rates := d.snapshot.recent

/-- The rates since the start. -/
def lifetime (d : Dashboard) : Rates := d.snapshot.lifetime

/-- The two counters of the last sample. -/
def totals (d : Dashboard) : Int64 × Int64 :=
  (d.snapshot.window.current.readBytes, d.snapshot.window.current.writeBytes)

/-- Whether there was a sample with a time. -/
def hasSample (d : Dashboard) : Bool := 0 < d.snapshot.window.current.timestampMs

end Dashboard

end IoWatch
