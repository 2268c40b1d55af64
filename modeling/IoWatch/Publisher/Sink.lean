import IoWatch.Storage.Fault

/-!
# Sinks

A sink takes bytes up to a capacity. A write that does not fit fills it and fails, and so does every
later write of at least one byte.

## Main definitions

* `Sink`: what was written, what still fits, and how a full sink fails
* `Sink.write`: the sink and the outcome after a write
* `Sink.flush`: the outcome of flushing
* `Sink.unlimited`: a sink that takes everything

## Main results

* `Sink.taken_of_fits`: what fits is taken whole
* `Sink.write_of_fits`, `Sink.write_of_not_fits`: the two cases of a write
* `Sink.write_unlimited`: an unlimited sink takes every byte
-/

namespace IoWatch

/-- A destination of bytes. -/
structure Sink where
  /-- How many bytes it takes in all, if there is a limit. -/
  capacity : Option Nat
  /-- How a write fails that does not fit. -/
  whenFull : Fault
  /-- How flushing fails, if it does. -/
  whenFlushed : Option Fault
  written : List UInt8
  deriving DecidableEq

namespace Sink

/-- Whether so many more bytes fit. -/
def fits (s : Sink) (count : Nat) : Bool :=
  match s.capacity with
  | none => true
  | some capacity => s.written.length + count ≤ capacity

/-- The bytes of a write that find room. -/
def taken (s : Sink) (bytes : List UInt8) : List UInt8 :=
  match s.capacity with
  | none => bytes
  | some capacity => bytes.take (capacity - s.written.length)

/-- The sink after a write, and whether all of it found room. Nothing fails that writes nothing. -/
def write (s : Sink) (bytes : List UInt8) : Sink × Except Fault Unit :=
  let after := { s with written := s.written ++ s.taken bytes }
  if bytes = [] ∨ s.fits bytes.length then (after, .ok ()) else (after, .error s.whenFull)

/-- The outcome of flushing a sink. -/
def flush (s : Sink) : Except Fault Unit :=
  match s.whenFlushed with
  | none => .ok ()
  | some fault => .error fault

/-- A sink without a limit, which nothing has been written to. -/
def unlimited : Sink := ⟨none, .shortWrite, none, []⟩

theorem write_nil (s : Sink) : s.write [] = (s, .ok ()) := by
  have hnone : s.taken [] = [] := by
    unfold taken
    split <;> simp
  rw [write, hnone, if_pos (.inl rfl), List.append_nil]

theorem taken_of_fits {s : Sink} {bytes : List UInt8} (h : s.fits bytes.length = true) :
    s.taken bytes = bytes := by
  unfold taken
  unfold fits at h
  split at h
  · rfl
  · simp only [decide_eq_true_eq] at h
    exact List.take_of_length_le (by omega)

theorem exists_capacity_of_not_fits {s : Sink} {count : Nat} (h : s.fits count = false) :
    ∃ capacity, s.capacity = some capacity ∧ capacity < s.written.length + count := by
  unfold fits at h
  split at h
  · cases h
  · rename_i capacity hcapacity
    exact ⟨capacity, hcapacity, by simpa using h⟩

theorem write_of_fits {s : Sink} {bytes : List UInt8} (h : s.fits bytes.length = true) :
    s.write bytes = ({ s with written := s.written ++ bytes }, .ok ()) := by
  simp [write, h, taken_of_fits h]

theorem write_of_not_fits {s : Sink} {bytes : List UInt8} (hne : bytes ≠ [])
    (h : s.fits bytes.length = false) :
    s.write bytes = ({ s with written := s.written ++ s.taken bytes }, .error s.whenFull) := by
  simp [write, h, hne]

theorem write_unlimited {s : Sink} (h : s.capacity = none) (bytes : List UInt8) :
    s.write bytes = ({ s with written := s.written ++ bytes }, .ok ()) :=
  write_of_fits (by simp [fits, h])

end Sink

end IoWatch
