import IoWatch.Json
import IoWatch.Rate

/-!
# Usage of a process

The window over a process's samples and the instant its observation began. Every rate is computed
from the window when it is asked for; a snapshot holds all of them for one window.

## Main definitions

* `Usage`, `Usage.update`: the observed state, and the step a sample makes
* `Usage.rates`, `Usage.rate`: the rates over a span, and one of them
* `Snapshot`, `Usage.snapshot`: all that is known at one instant
* `Snapshot.toJson`, `Snapshot.line`: a snapshot as a JSON object on a line of its own

## Main results

* `Usage.updateAll_window`, `Usage.updateAll_sinceMs`: samples move the window and nothing else
-/

namespace IoWatch

/-- The span of time that a rate is taken over. -/
inductive Span where
  | recent
  /-- Since the start of observation. -/
  | lifetime
  deriving DecidableEq, Repr

/-- The observed state of a process. -/
structure Usage where
  sinceMs : Int64
  window : Window
  deriving DecidableEq

/-- All that is known at one instant. -/
structure Snapshot where
  sinceMs : Int64
  window : Window
  /-- The rates between them. -/
  recent : Rates
  /-- The rates since the start. -/
  lifetime : Rates
  deriving DecidableEq

namespace Usage

/-- The state at the start of observation. -/
def start (sinceMs : Int64) : Usage := ⟨sinceMs, .initial⟩

/-- The state after a sample. -/
def update (u : Usage) (s : Sample) : Usage := { u with window := u.window.advance s }

/-- The state after a list of samples. -/
def updateAll (u : Usage) (samples : List Sample) : Usage := samples.foldl update u

/-- The rates over a span. -/
def rates (u : Usage) : Span → Except Abort Rates
  | .recent => Rates.recent u.window
  | .lifetime => Rates.lifetime u.sinceMs u.window

/-- One rate over a span. It is taken from the rates of both counters, so it aborts when either of
them does. -/
def rate (u : Usage) (span : Span) (side : Side) (unit : RateUnit) : Except Abort Binary64 :=
  (u.rates span).map (·.get side unit)

/-- All rates of one window. -/
def snapshot (u : Usage) : Except Abort Snapshot := do
  let recent ← u.rates .recent
  let lifetime ← u.rates .lifetime
  return ⟨u.sinceMs, u.window, recent, lifetime⟩

@[simp] theorem update_sinceMs (u : Usage) (s : Sample) : (u.update s).sinceMs = u.sinceMs := rfl

@[simp] theorem update_window (u : Usage) (s : Sample) :
    (u.update s).window = u.window.advance s := rfl

@[simp] theorem updateAll_sinceMs (u : Usage) (samples : List Sample) :
    (u.updateAll samples).sinceMs = u.sinceMs := by
  induction samples generalizing u with
  | nil => rfl
  | cons s samples ih => exact ih (u.update s)

@[simp] theorem updateAll_window (u : Usage) (samples : List Sample) :
    (u.updateAll samples).window = u.window.advanceAll samples := by
  induction samples generalizing u with
  | nil => rfl
  | cons s samples ih => exact ih (u.update s)

end Usage

/-- A sample as a JSON object. -/
def Sample.toJson (s : Sample) : Json :=
  .object [("timestamp_ms", .int s.timestampMs.toInt), ("read_bytes", .int s.readBytes.toInt),
    ("write_bytes", .int s.writeBytes.toInt)]

/-- A window as a JSON object. -/
def Window.toJson (w : Window) : Json :=
  .object [("previous", w.previous.toJson), ("current", w.current.toJson)]

/-- Rates as a JSON object. -/
def Rates.toJson (r : Rates) : Json :=
  .object [("read_kb_per_sec", .number r.readKb), ("write_kb_per_sec", .number r.writeKb),
    ("read_mb_per_sec", .number r.readMb), ("write_mb_per_sec", .number r.writeMb)]

namespace Snapshot

/-- A snapshot as a JSON object. -/
def toJson (s : Snapshot) : Json :=
  .object [("since_ms", .int s.sinceMs.toInt), ("window", s.window.toJson),
    ("sample_time", s.recent.toJson), ("accumulated", s.lifetime.toJson)]

/-- The text of a snapshot, without a line end. -/
def line (s : Snapshot) : List Char := s.toJson.render

end Snapshot

end IoWatch
