import IoWatch.Abort

/-!
# Samples and the window over them

A sample is one timestamped observation of a process's two cumulative byte counters. A window
holds the last two readable samples. A sample whose counters could not be read is marked by both
counters holding the least word, whatever its timestamp; it leaves a window as it was.

## Main definitions

* `Sample`, `Sample.unreadable`, `Sample.isUnreadable`: observations, and the mark of a failed one
* `Window`, `Window.advance`: the last two samples, and the step a new one makes
* `Window.advanceAll`: the window after a list of samples
* `Window.readDelta`, `Window.writeDelta`, `Window.elapsed`: differences within a window

## Main results

* `Window.advance_of_readable`, `Window.advance_of_unreadable`: the two cases of the step
* `Window.advanceAll_append`: a list of samples can be taken in two parts
-/

namespace IoWatch

/-- One timestamped observation of the cumulative byte counters of a process. -/
structure Sample where
  /-- When it was made, in milliseconds. -/
  timestampMs : Int64
  readBytes : Int64
  writeBytes : Int64
  deriving DecidableEq

namespace Sample

/-- The all-zero sample, with which a window starts. -/
def origin : Sample := ⟨0, 0, 0⟩

/-- What stands for an observation that failed. -/
def unreadable : Sample := ⟨-1, Int64.minValue, Int64.minValue⟩

/-- A sample is unreadable when both of its counters hold the least word. -/
def isUnreadable (s : Sample) : Bool :=
  s.readBytes == Int64.minValue && s.writeBytes == Int64.minValue

@[simp] theorem isUnreadable_unreadable : unreadable.isUnreadable = true := by decide

@[simp] theorem isUnreadable_origin : origin.isUnreadable = false := by decide

end Sample

/-- The last two readable samples. -/
structure Window where
  previous : Sample
  current : Sample
  deriving DecidableEq

namespace Window

/-- The window before any sample. -/
def initial : Window := ⟨.origin, .origin⟩

/-- The window after a sample: the current one becomes the previous one. An unreadable sample
changes nothing. -/
def advance (w : Window) (s : Sample) : Window :=
  if s.isUnreadable then w else ⟨w.current, s⟩

/-- The window after a list of samples. -/
def advanceAll (w : Window) (samples : List Sample) : Window := samples.foldl advance w

@[simp] theorem advance_of_readable {s : Sample} (h : s.isUnreadable = false) (w : Window) :
    w.advance s = ⟨w.current, s⟩ := by simp [advance, h]

@[simp] theorem advance_of_unreadable {s : Sample} (h : s.isUnreadable = true) (w : Window) :
    w.advance s = w := by simp [advance, h]

@[simp] theorem advanceAll_nil (w : Window) : w.advanceAll [] = w := rfl

@[simp] theorem advanceAll_cons (w : Window) (s : Sample) (samples : List Sample) :
    w.advanceAll (s :: samples) = (w.advance s).advanceAll samples := rfl

theorem advanceAll_append (w : Window) (earlier later : List Sample) :
    w.advanceAll (earlier ++ later) = (w.advanceAll earlier).advanceAll later := by
  simp [advanceAll, List.foldl_append]

/-- Bytes read between the two samples. -/
def readDelta (w : Window) : Except Abort Int64 :=
  difference w.current.readBytes w.previous.readBytes

/-- Bytes written between the two samples. -/
def writeDelta (w : Window) : Except Abort Int64 :=
  difference w.current.writeBytes w.previous.writeBytes

/-- Milliseconds between the two samples. -/
def elapsed (w : Window) : Except Abort Int64 :=
  difference w.current.timestampMs w.previous.timestampMs

end Window

end IoWatch
