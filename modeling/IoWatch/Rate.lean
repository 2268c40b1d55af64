import IoWatch.Numeric.Binary64
import IoWatch.Sample

/-!
# Rates

Throughput in kilobytes per second, either between the two samples of a window or averaged since
an instant of reference. A span of time that is not positive and a counter that did not grow give
the rate zero. The byte difference is taken before the time difference; either may abort.

## Main definitions

* `deltaRate`, `lifetimeRate`: the rate of one counter between two samples, and since a start
* `Rates`: the rates of both counters in both units
* `Rates.recent`, `Rates.lifetime`: the rates over a window, and up to its current sample
* `Side`, `RateUnit`, `Rates.get`: one of the four rates
-/

namespace IoWatch

/-- Bytes in a kilobyte. -/
def bytesPerKb : Binary64 := 1024

/-- Kilobytes in a megabyte. -/
def kbPerMb : Binary64 := 1024

/-- Milliseconds in a second. -/
def millisPerSec : Binary64 := 1000

/-- A number of bytes over a number of milliseconds, in kilobytes per second. -/
def perSecond (bytes millis : Int64) : Binary64 :=
  Binary64.ofInt bytes.toInt / bytesPerKb / (Binary64.ofInt millis.toInt / millisPerSec)

/-- The rate of a counter between two samples, in kilobytes per second. -/
def deltaRate (prevMs currMs prevBytes currBytes : Int64) : Except Abort Binary64 :=
  if currMs ≤ prevMs ∨ currBytes ≤ prevBytes then .ok 0
  else do
    let bytes ← difference currBytes prevBytes
    let millis ← difference currMs prevMs
    return perSecond bytes millis

/-- The rate of a counter since a start at which it is taken to have been zero, in kilobytes per
second. -/
def lifetimeRate (sinceMs currMs currBytes : Int64) : Except Abort Binary64 :=
  if currMs ≤ sinceMs then .ok 0
  else do
    let millis ← difference currMs sinceMs
    return perSecond currBytes millis

/-- Kilobytes in megabytes. -/
def kbToMb (kb : Binary64) : Binary64 := kb / kbPerMb

/-- One of the two counters. -/
inductive Side where
  | read
  | write
  deriving DecidableEq, Repr

/-- One of the two units of a rate. -/
inductive RateUnit where
  | kb
  | mb
  deriving DecidableEq, Repr

/-- The rates of both counters in both units. -/
structure Rates where
  readKb : Binary64
  writeKb : Binary64
  readMb : Binary64
  writeMb : Binary64
  deriving DecidableEq

namespace Rates

/-- The rates of two counters given in kilobytes per second. -/
def ofKb (readKb writeKb : Binary64) : Rates := ⟨readKb, writeKb, kbToMb readKb, kbToMb writeKb⟩

/-- One of the four rates. -/
def get (r : Rates) : Side → RateUnit → Binary64
  | .read, .kb => r.readKb
  | .write, .kb => r.writeKb
  | .read, .mb => r.readMb
  | .write, .mb => r.writeMb

/-- The rates between the two samples of a window. -/
def recent (w : Window) : Except Abort Rates := do
  let p := w.previous
  let c := w.current
  let read ← deltaRate p.timestampMs c.timestampMs p.readBytes c.readBytes
  let write ← deltaRate p.timestampMs c.timestampMs p.writeBytes c.writeBytes
  return ofKb read write

/-- The rates from a start up to the current sample of a window. -/
def lifetime (sinceMs : Int64) (w : Window) : Except Abort Rates := do
  let c := w.current
  let read ← lifetimeRate sinceMs c.timestampMs c.readBytes
  let write ← lifetimeRate sinceMs c.timestampMs c.writeBytes
  return ofKb read write

end Rates

end IoWatch
