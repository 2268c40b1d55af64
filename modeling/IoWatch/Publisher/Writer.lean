import IoWatch.Publisher

/-!
# Writers

A writer takes some of the bytes that it is given. A loop hands it the rest until all are taken, a
write fails or a write takes none. A publisher of JSON lines does the same with any writer: the
line, its end and a flush. A sink is a writer, and takes from the loop what it takes at once.

## Main definitions

* `Writer`, `Writer.writeAll`: a destination that may take less than it is given, and the loop
* `refusal?`: why the loop ends with a write
* `Writer.writeLine`, `Writer.publish`, `Writer.after`: a line, a publish, and a list of publishes
* `Sink.holding`, `Sink.writer`: a sink with other bytes in it, and a sink as a writer

## Main results

* `Writer.writeAll_of_taken`, `Writer.writeAll_of_refusal`: what the loop does behind a write
* `Sink.writeAll_of_fits`, `Sink.writeAll_of_not_fits`: the loop over a sink
* `Sink.write_eq_writeAll`: a sink takes what the loop hands it
* `Publisher.publish_jsonLines`: a publisher of JSON lines publishes to its sink as to a writer
-/

namespace IoWatch

/-- A destination of bytes that may take less than it is given. -/
structure Writer (σ : Type) where
  /-- The state after a write, and how many bytes it took from the front. A write that was only
  interrupted is part of the one that follows. -/
  write : σ → List UInt8 → σ × Except Fault Nat
  flush : σ → σ × Except Fault Unit

/-- Why nothing is written behind a write: it failed, or it took nothing. -/
def refusal? : Except Fault Nat → Option Fault
  | .error fault => some fault
  | .ok 0 => some .shortWrite
  | .ok (_ + 1) => none

namespace Writer

variable {σ : Type}

section Loop

variable (w : Writer σ)

/-- Writes again and again until all bytes are taken, or until a write takes nothing. -/
def writeAll (s : σ) (bytes : List UInt8) : σ × Except Fault Unit :=
  if bytes = [] then (s, .ok ())
  else
    match w.write s bytes with
    | (s, .error fault) => (s, .error fault)
    | (s, .ok 0) => (s, .error .shortWrite)
    | (s, .ok (n + 1)) => writeAll s (bytes.drop (n + 1))
termination_by bytes.length
decreasing_by
  have hpos := List.length_pos_iff.mpr ‹bytes ≠ []›
  rw [List.length_drop]
  omega

/-- Writes a line, and its end once the line is taken. -/
def writeLine (s : σ) (line : List Char) : σ × Except Fault Unit :=
  match w.writeAll s (Utf8.encode line) with
  | (s, .error fault) => (s, .error fault)
  | (s, .ok ()) => w.writeAll s (Utf8.encode ['\n'])

/-- Publishes the snapshot of a usage: its line with the line end, and a flush once all is taken. -/
def publish (s : σ) (usage : Usage) : σ × Outcome :=
  match usage.snapshot with
  | .error reason => (s, .aborted reason)
  | .ok x =>
    match w.writeLine s x.line with
    | (s, .error fault) => (s, .failed (.write fault))
    | (s, .ok ()) => ((w.flush s).1, .ofWrite (w.flush s).2)

/-- The state after some publishes. -/
def after (s : σ) (usages : List Usage) : σ := usages.foldl (fun s usage => (w.publish s usage).1) s

@[simp] theorem writeAll_nil (s : σ) : w.writeAll s [] = (s, .ok ()) := by
  rw [writeAll, if_pos rfl]

theorem writeAll_of_refusal {s t : σ} {bytes : List UInt8} {result : Except Fault Nat}
    {fault : Fault} (hne : bytes ≠ []) (hwrite : w.write s bytes = (t, result))
    (hfault : refusal? result = some fault) : w.writeAll s bytes = (t, .error fault) := by
  rw [writeAll, if_neg hne, hwrite]
  rcases result with fault' | _ | n
  · cases hfault
    rfl
  · cases hfault
    rfl
  · cases hfault

theorem writeAll_of_taken {s t : σ} {bytes : List UInt8} {n : Nat} (hne : bytes ≠ [])
    (hn : 0 < n) (hwrite : w.write s bytes = (t, .ok n)) :
    w.writeAll s bytes = w.writeAll t (bytes.drop n) := by
  cases n with
  | zero => exact absurd hn (Nat.lt_irrefl 0)
  | succ n => rw [writeAll, if_neg hne, hwrite]

end Loop

section Publish

variable {w : Writer σ} {u : Usage} {x : Snapshot}

theorem publish_of_ok {s t : σ} (hx : u.snapshot = .ok x) (h : w.writeLine s x.line = (t, .ok ())) :
    w.publish s u = ((w.flush t).1, .ofWrite (w.flush t).2) := by
  simp only [publish, hx, h]

theorem publish_of_error {s t : σ} {fault : Fault} (hx : u.snapshot = .ok x)
    (h : w.writeLine s x.line = (t, .error fault)) :
    w.publish s u = (t, .failed (.write fault)) := by
  simp only [publish, hx, h]

end Publish

end Writer

/-! ## A sink as a writer -/

namespace Sink

/-- A sink with other bytes in it. -/
def holding (sink : Sink) (written : List UInt8) : Sink := { sink with written }

/-- A sink as a writer, whose state is the bytes that were written. -/
def writer (sink : Sink) : Writer (List UInt8) where
  write written bytes :=
    let taken := (sink.holding written).taken bytes
    let result : Except Fault Nat :=
      if taken ≠ [] then .ok taken.length
      else if sink.whenFull = .shortWrite then .ok 0
      else .error sink.whenFull
    (written ++ taken, result)
  flush written := (written, sink.flush)

section Writer

variable {sink : Sink} {written bytes : List UInt8}

theorem writer_write_of_taken (h : (sink.holding written).taken bytes ≠ []) :
    sink.writer.write written bytes =
      (written ++ (sink.holding written).taken bytes,
        .ok ((sink.holding written).taken bytes).length) := by
  simp only [writer, if_pos h]

/-- A full sink refuses a write with its fault. -/
theorem writer_write_of_full (h : (sink.holding written).taken bytes = []) :
    ∃ result, sink.writer.write written bytes = (written, result) ∧
      refusal? result = some sink.whenFull := by
  by_cases hshort : sink.whenFull = .shortWrite
  · refine ⟨.ok 0, ?_, by rw [hshort]; rfl⟩
    simp [writer, h, hshort]
  · refine ⟨.error sink.whenFull, ?_, rfl⟩
    simp [writer, h, hshort]

theorem eq_whenFull_of_refusal? {fault : Fault}
    (h : refusal? (sink.writer.write written bytes).2 = some fault) : fault = sink.whenFull := by
  by_cases hfull : (sink.holding written).taken bytes = []
  · obtain ⟨result, hwrite, hfault⟩ := writer_write_of_full hfull
    rw [hwrite] at h
    exact Option.some.inj (h.symm.trans hfault)
  · obtain ⟨n, hn⟩ := Nat.exists_eq_succ_of_ne_zero
      (Nat.ne_of_gt (List.length_pos_iff.mpr hfull))
    rw [writer_write_of_taken hfull, hn] at h
    cases h

end Writer

theorem taken_of_capacity {sink : Sink} {capacity : Nat} (h : sink.capacity = some capacity)
    (written bytes : List UInt8) :
    (sink.holding written).taken bytes = bytes.take (capacity - written.length) := by
  simp only [taken, holding, h]

theorem writeAll_of_fits {sink : Sink} {written bytes : List UInt8}
    (h : (sink.holding written).fits bytes.length = true) :
    sink.writer.writeAll written bytes = (written ++ bytes, .ok ()) := by
  by_cases hne : bytes = []
  · rw [hne, Writer.writeAll_nil, List.append_nil]
  have htaken := taken_of_fits h
  have hwrite := writer_write_of_taken (by rwa [htaken])
  rw [htaken] at hwrite
  rw [Writer.writeAll_of_taken _ hne (List.length_pos_iff.mpr hne) hwrite, List.drop_length,
    Writer.writeAll_nil]

/-- Of bytes that do not fit, the first write fills the sink and the second one is refused. If the
sink is full already, the first one is. -/
theorem writeAll_of_not_fits {sink : Sink} {written bytes : List UInt8} (hne : bytes ≠ [])
    (h : (sink.holding written).fits bytes.length = false) :
    sink.writer.writeAll written bytes =
      (written ++ (sink.holding written).taken bytes, .error sink.whenFull) := by
  obtain ⟨capacity, hcapacity, hlong⟩ := exists_capacity_of_not_fits h
  change sink.capacity = some capacity at hcapacity
  change capacity < written.length + bytes.length at hlong
  by_cases hnone : (sink.holding written).taken bytes = []
  · obtain ⟨result, hwrite, hfault⟩ := writer_write_of_full hnone
    rw [Writer.writeAll_of_refusal _ hne hwrite hfault, hnone, List.append_nil]
  have hpos := List.length_pos_iff.mpr hne
  have hlength : ((sink.holding written).taken bytes).length = capacity - written.length := by
    rw [taken_of_capacity hcapacity, List.length_take]
    omega
  have hrest : bytes.drop (capacity - written.length) ≠ [] := by
    rw [← List.length_pos_iff, List.length_drop]
    omega
  have hfull : (sink.holding (written ++ (sink.holding written).taken bytes)).taken
      (bytes.drop (capacity - written.length)) = [] := by
    rw [taken_of_capacity hcapacity, List.length_append, hlength,
      Nat.sub_eq_zero_of_le (by omega), List.take_zero]
  have hwrite := writer_write_of_taken hnone
  rw [hlength] at hwrite
  obtain ⟨result, hrefused, hfault⟩ := writer_write_of_full hfull
  have hroom : 0 < capacity - written.length := by
    rw [← hlength]
    exact List.length_pos_iff.mpr hnone
  rw [Writer.writeAll_of_taken _ hne hroom hwrite,
    Writer.writeAll_of_refusal _ hrest hrefused hfault]

/-- A sink takes what the loop hands it. -/
theorem write_eq_writeAll (sink : Sink) (written bytes : List UInt8) :
    (sink.holding written).write bytes =
      (sink.holding (sink.writer.writeAll written bytes).1,
        (sink.writer.writeAll written bytes).2) := by
  cases hfits : (sink.holding written).fits bytes.length with
  | true =>
    rw [write_of_fits hfits, writeAll_of_fits hfits]
    rfl
  | false =>
    by_cases hne : bytes = []
    · rw [hne, Writer.writeAll_nil, write_nil]
    · rw [write_of_not_fits hne hfits, writeAll_of_not_fits hne hfits]
      rfl

theorem writeLine_holding (sink : Sink) (written : List UInt8) (line : List Char) :
    (sink.holding written).writeLine line =
      (sink.holding (sink.writer.writeLine written line).1,
        (sink.writer.writeLine written line).2.bind fun _ => sink.flush) := by
  simp only [writeLine, Writer.writeLine, write_eq_writeAll]
  rcases sink.writer.writeAll written (Utf8.encode line) with ⟨t, fault | ⟨⟩⟩
  · rfl
  dsimp only
  rw [write_eq_writeAll]
  rcases sink.writer.writeAll t (Utf8.encode ['\n']) with ⟨t', fault | ⟨⟩⟩ <;> rfl

end Sink

/-- A publisher of JSON lines publishes to its sink as to a writer. -/
theorem Publisher.publish_jsonLines (sink : Sink) (written : List UInt8) (usage : Usage)
    (sample : Sample) :
    (jsonLines (sink.holding written)).publish usage sample =
      ⟨jsonLines (sink.holding (sink.writer.publish written usage).1), [],
        (sink.writer.publish written usage).2⟩ := by
  cases hx : usage.snapshot with
  | error reason => simp only [publish, Writer.publish, hx]
  | ok x =>
    simp only [publish, Writer.publish, hx, Sink.writeLine_holding]
    rcases sink.writer.writeLine written x.line with ⟨t, fault | ⟨⟩⟩ <;> rfl

end IoWatch
