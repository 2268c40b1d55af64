import IoWatch.Proofs.Overflow
import IoWatch.Publisher.Writer
import Mathlib.Data.List.Forall2

/-!
# A sink that runs full

Where a writer takes a limited number of bytes in all, what it has taken is the start of what was
published, cut wherever the limit falls: inside a line, between a line and its end, or between two
lines. From then on nothing is taken and nothing is reported as published.

## Main definitions

* `Writer.IsLimited`: a writer takes no more than some number of bytes, and then refuses
* `Writer.GivesUp`: a loop has ended with a write that took nothing
* `Writer.stream`: the bytes of the lines of some snapshots

## Main results

* `Writer.IsLimited.writeAll_cases`: the loop takes what fits, and gives up if that is not all
* `Sink.isLimited_writer`: a sink with a limit is such a writer
* `limited_writer_truncates_stream`: every publish to a limited writer
-/

namespace IoWatch

namespace Writer

variable {σ : Type}

/-- What has taken so many bytes has refused a write, and nothing was done behind it. -/
def GivesUp (w : Writer σ) (written : σ → List UInt8) (capacity : Nat)
    (result : σ × Except Fault Unit) : Prop :=
  ∃ t rest fault, rest ≠ [] ∧ capacity ≤ (written t).length ∧
    refusal? (w.write t rest).2 = some fault ∧ result = ((w.write t rest).1, .error fault)

/-- What a writer has taken is never more than some number of bytes. It takes at least one byte as
long as it has not taken so many; behind that every write fails or takes nothing. -/
structure IsLimited (w : Writer σ) (written : σ → List UInt8) (capacity : Nat) : Prop where
  takes : ∀ s bytes, bytes ≠ [] → (written s).length < capacity →
    ∃ t n, w.write s bytes = (t, .ok n) ∧ 0 < n ∧ written t = written s ++ bytes.take n ∧
      (written t).length ≤ capacity
  refuses : ∀ s bytes, bytes ≠ [] → capacity ≤ (written s).length →
    written (w.write s bytes).1 = written s ∧ ∃ fault, refusal? (w.write s bytes).2 = some fault
  flush : ∀ s, written (w.flush s).1 = written s

namespace IsLimited

variable {w : Writer σ} {written : σ → List UInt8} {capacity : Nat}

/-- The loop takes what fits of the bytes behind those that were offered before. It ends well if
that is all of them, and gives up if not. -/
theorem writeAll_cases (hw : w.IsLimited written capacity) {s : σ} {offered : List UInt8}
    (hs : written s = offered.take capacity) (bytes : List UInt8) :
    written (w.writeAll s bytes).1 = (offered ++ bytes).take capacity ∧
      ((w.writeAll s bytes).2 = .ok () ∧ (bytes ≠ [] → (offered ++ bytes).length ≤ capacity) ∨
        w.GivesUp written capacity (w.writeAll s bytes) ∧
          capacity < (offered ++ bytes).length) := by
  -- On the number of bytes that are left: a write that takes some leaves fewer.
  induction hlen : bytes.length using Nat.strongRecOn generalizing s offered bytes with
  | ind length ih =>
    by_cases hne : bytes = []
    · subst hne
      rw [writeAll_nil, List.append_nil]
      exact ⟨hs, .inl ⟨rfl, fun h => absurd rfl h⟩⟩
    have hpos : 0 < bytes.length := List.length_pos_iff.mpr hne
    rcases Nat.lt_or_ge (written s).length capacity with hroom | hfull
    · obtain ⟨t, n, hwrite, hn, hwritten, hle⟩ := hw.takes s bytes hne hroom
      -- There is room, so all that was offered before has been taken.
      have hoffered : written s = offered := by
        rw [hs, List.length_take] at hroom
        rw [hs, List.take_of_length_le (by omega)]
      have ht : written t = (offered ++ bytes.take n).take capacity := by
        rw [hwritten, hoffered] at hle ⊢
        exact (List.take_of_length_le hle).symm
      have hrest := ih (bytes.drop n).length (by rw [List.length_drop]; omega) ht (bytes.drop n) rfl
      rw [List.append_assoc, List.take_append_drop] at hrest
      rw [w.writeAll_of_taken hne hn hwrite]
      refine ⟨hrest.1, hrest.2.imp_left fun ⟨hok, hfits⟩ => ⟨hok, fun _ => ?_⟩⟩
      by_cases hdrop : bytes.drop n = []
      · rw [hwritten, hoffered] at hle
        rwa [← List.take_append_drop n bytes, hdrop, List.append_nil]
      · exact hfits hdrop
    · obtain ⟨hwritten, fault, hfault⟩ := hw.refuses s bytes hne hfull
      have hcapacity : capacity ≤ offered.length := by
        rw [hs, List.length_take] at hfull
        omega
      rw [w.writeAll_of_refusal hne rfl hfault]
      refine ⟨?_, .inr ⟨⟨s, bytes, fault, hne, hfull, hfault, rfl⟩, ?_⟩⟩
      · rw [hwritten, hs, List.take_append_of_le_length hcapacity]
      · rw [List.length_append]
        omega

/-- The same for a line with its end. Once the line is taken, its end decides. -/
theorem writeLine_cases (hw : w.IsLimited written capacity) {s : σ} {offered : List UInt8}
    (hs : written s = offered.take capacity) (line : List Char) :
    written (w.writeLine s line).1 = (offered ++ Utf8.encode (line ++ ['\n'])).take capacity ∧
      ((w.writeLine s line).2 = .ok () ∧
          (offered ++ Utf8.encode (line ++ ['\n'])).length ≤ capacity ∨
        w.GivesUp written capacity (w.writeLine s line) ∧
          capacity < (offered ++ Utf8.encode (line ++ ['\n'])).length) := by
  have hencode : offered ++ Utf8.encode (line ++ ['\n']) =
      offered ++ Utf8.encode line ++ Utf8.encode ['\n'] := by simp [Utf8.encode]
  have hend : Utf8.encode ['\n'] ≠ [] := by decide
  obtain ⟨hline, hcases⟩ := hw.writeAll_cases hs (Utf8.encode line)
  rw [hencode, writeLine]
  generalize hresult : w.writeAll s (Utf8.encode line) = result at hline hcases
  obtain ⟨t, result⟩ := result
  rcases hcases with ⟨hok, -⟩ | ⟨⟨t', rest, fault, hrest, hfull, hfault, hgives⟩, hlong⟩
  · obtain rfl : result = .ok () := hok
    obtain ⟨hboth, hcases⟩ := hw.writeAll_cases hline (Utf8.encode ['\n'])
    refine ⟨hboth, hcases.imp_left ?_⟩
    rintro ⟨hok, hfits⟩
    exact ⟨hok, hfits hend⟩
  · obtain ⟨rfl, rfl⟩ := Prod.mk.inj hgives
    refine ⟨?_, .inr ⟨⟨t', rest, fault, hrest, hfull, hfault, rfl⟩, ?_⟩⟩
    · rw [List.take_append_of_le_length (Nat.le_of_lt hlong)]
      exact hline
    · rw [List.length_append]
      omega

end IsLimited

/-! ## Publishes -/

/-- The bytes of the lines of some snapshots. -/
def stream (xs : List Snapshot) : List UInt8 := xs.flatMap fun x => Utf8.encode (x.line ++ ['\n'])

theorem stream_cons (x : Snapshot) (xs : List Snapshot) :
    stream (x :: xs) = Utf8.encode (x.line ++ ['\n']) ++ stream xs := List.flatMap_cons

theorem stream_concat (xs : List Snapshot) (x : Snapshot) :
    stream (xs ++ [x]) = stream xs ++ Utf8.encode (x.line ++ ['\n']) := by simp [stream]

section Publish

variable {w : Writer σ} {written : σ → List UInt8} {capacity : Nat} {u : Usage} {x : Snapshot}

/-- A publish adds what its line adds. -/
theorem IsLimited.written_publish (hw : w.IsLimited written capacity) (hx : u.snapshot = .ok x)
    (s : σ) : written (w.publish s u).1 = written (w.writeLine s x.line).1 := by
  rcases h : w.writeLine s x.line with ⟨t, fault | ⟨⟩⟩
  · rw [publish_of_error hx h]
  · rw [publish_of_ok hx h]
    exact hw.flush t

/-- After some publishes, the start of their lines is taken. -/
theorem IsLimited.written_after (hw : w.IsLimited written capacity) {s : σ} {offered : List UInt8}
    (hs : written s = offered.take capacity) {us : List Usage} {xs : List Snapshot}
    (hxs : List.Forall₂ (fun u x => u.snapshot = .ok x) us xs) :
    written (w.after s us) = (offered ++ stream xs).take capacity := by
  induction hxs generalizing s offered with
  | nil => simpa [after, stream] using hs
  | @cons u x us xs hx _ ih =>
    have hfirst : written (w.publish s u).1 =
        (offered ++ Utf8.encode (x.line ++ ['\n'])).take capacity := by
      rw [hw.written_publish hx]
      exact (hw.writeLine_cases hs x.line).1
    rw [stream_cons, ← List.append_assoc]
    exact ih hfirst

end Publish

end Writer

/-! ## A sink with a limit -/

namespace Sink

/-- A sink of some capacity is a writer that takes so many bytes. -/
theorem isLimited_writer {sink : Sink} {capacity : Nat} (h : sink.capacity = some capacity) :
    sink.writer.IsLimited id capacity where
  takes written bytes hne hroom := by
    change written.length < capacity at hroom
    have htaken := taken_of_capacity h written bytes
    have hpos : 0 < bytes.length := List.length_pos_iff.mpr hne
    have hsome : (sink.holding written).taken bytes ≠ [] := by
      rw [← List.length_pos_iff, htaken, List.length_take]
      omega
    refine ⟨_, _, writer_write_of_taken hsome, List.length_pos_iff.mpr hsome, ?_, ?_⟩
    · rw [htaken]
      exact congrArg (written ++ ·) (List.prefix_iff_eq_take.mp (List.take_prefix _ _))
    · rw [id, htaken, List.length_append, List.length_take]
      omega
  refuses written bytes hne hfull := by
    change capacity ≤ written.length at hfull
    have hnone : (sink.holding written).taken bytes = [] := by
      rw [taken_of_capacity h, Nat.sub_eq_zero_of_le hfull, List.take_zero]
    obtain ⟨result, hwrite, hfault⟩ := writer_write_of_full hnone
    rw [hwrite]
    exact ⟨rfl, _, hfault⟩
  flush written := rfl

end Sink

theorem Outcome.ofWrite_eq_published_iff {result : Except Fault Unit} :
    ofWrite result = published ↔ result = .ok () := by
  rcases result with fault | ⟨⟩ <;> simp [ofWrite]

/-- **A sink that runs full cuts the stream of lines and adds nothing to it.** Take any writer that
takes some number of bytes in all, in whatever pieces, and then fails or takes nothing, and any
publishes to it whose snapshots exist. After the last one, what it has taken is the start of all
their lines, as far as it fits. The last publish succeeds exactly when all of it fits and the flush
succeeds. If it does not fit, the publish ends with a write that the full writer refuses, and fails
with the fault of that write; if it fits and the flush fails, all lines are taken and the publish
fails with the fault of the flush. The sink of a publisher of JSON lines is such a writer if it has
a limit, and it refuses with its fault. -/
theorem limited_writer_truncates_stream :
    (∀ {σ : Type} (w : Writer σ) (written : σ → List UInt8) (capacity : Nat) (s₀ : σ)
        (us : List Usage) (xs : List Snapshot) (u : Usage) (x : Snapshot),
      w.IsLimited written capacity → written s₀ = [] →
      List.Forall₂ (fun u x => u.snapshot = .ok x) us xs → u.snapshot = .ok x →
      let s := w.after s₀ us
      let beforeFlush := (w.writeLine s x.line).1
      let stream := Writer.stream (xs ++ [x])
      written (w.publish s u).1 = stream.take capacity ∧
        ((w.publish s u).2 = .published ↔
          stream.length ≤ capacity ∧ (w.flush beforeFlush).2 = .ok ()) ∧
        (capacity < stream.length → ∃ t rest fault, rest ≠ [] ∧ capacity ≤ (written t).length ∧
          refusal? (w.write t rest).2 = some fault ∧
          w.publish s u = ((w.write t rest).1, .failed (.write fault))) ∧
        (stream.length ≤ capacity → ∀ fault, (w.flush beforeFlush).2 = .error fault →
          written (w.publish s u).1 = stream ∧ (w.publish s u).2 = .failed (.write fault))) ∧
    (∀ sink : Sink,
      (∀ capacity, sink.capacity = some capacity → sink.writer.IsLimited id capacity) ∧
      (∀ written bytes fault, refusal? (sink.writer.write written bytes).2 = some fault →
        fault = sink.whenFull) ∧
      ∀ written usage sample, (Publisher.jsonLines (sink.holding written)).publish usage sample =
        ⟨.jsonLines (sink.holding (sink.writer.publish written usage).1), [],
          (sink.writer.publish written usage).2⟩) ∧
    refusal? (.ok 0) = some .shortWrite ∧
    Fault.shortWrite.message = "failed to write whole buffer" := by
  refine ⟨?_, fun sink => ⟨fun capacity => sink.isLimited_writer, ?_, ?_⟩, rfl, rfl⟩
  · intro σ w written capacity s₀ us xs u x hw hs₀ hxs hx s beforeFlush stream
    have hempty : written s₀ = [].take capacity := by rw [hs₀, List.take_nil]
    obtain ⟨hline, hcases⟩ := hw.writeLine_cases (hw.written_after hempty hxs) x.line
    rw [List.nil_append, ← Writer.stream_concat] at hline hcases
    change written beforeFlush = stream.take capacity at hline
    have hwritten : written (w.publish s u).1 = stream.take capacity := by
      rw [hw.written_publish hx]
      exact hline
    refine ⟨hwritten, ?_⟩
    rcases hcases with ⟨hok, hfits⟩ | ⟨⟨t, rest, fault, hrest, hfull, hfault, hgives⟩, hlong⟩
    · have hpublish : w.publish s u = ((w.flush beforeFlush).1, .ofWrite (w.flush beforeFlush).2) :=
        Writer.publish_of_ok hx (Prod.ext rfl hok)
      rw [hpublish] at hwritten ⊢
      refine ⟨?_, fun hlong => absurd hfits (Nat.not_le_of_lt hlong), fun _ fault hfault => ?_⟩
      · rw [Outcome.ofWrite_eq_published_iff]
        exact (and_iff_right hfits).symm
      · rw [hwritten, List.take_of_length_le hfits, hfault]
        exact ⟨rfl, rfl⟩
    · have hpublish : w.publish s u = ((w.write t rest).1, .failed (.write fault)) :=
        Writer.publish_of_error hx hgives
      refine ⟨?_, fun _ => ⟨t, rest, fault, hrest, hfull, hfault, hpublish⟩, fun hfits => ?_⟩
      · rw [hpublish]
        exact iff_of_false (by simp) fun h => absurd h.1 (Nat.not_le_of_lt hlong)
      · exact absurd hfits (Nat.not_le_of_lt hlong)
  · exact fun written bytes fault => Sink.eq_whenFull_of_refusal?
  · exact Publisher.publish_jsonLines sink

/-- The limit falls between a line and its end. The line is all that is ever taken, and neither this
publish nor the next one succeeds. -/
theorem limited_writer_truncates_stream_behind_line :
    ∃ x, (Usage.start 0).snapshot = .ok x ∧
      let sink : Sink := ⟨some (Utf8.encode x.line).length, .other "sink full", none, []⟩
      let first := (Publisher.jsonLines sink).publish (.start 0) .origin
      let second := first.next.publish (.start 0) .origin
      first.outcome = .failed (.write (.other "sink full")) ∧
        second.outcome = .failed (.write (.other "sink full")) ∧
        second.next = .jsonLines (sink.holding (Utf8.encode x.line)) := by
  obtain ⟨x, hx⟩ := Usage.snapshot_of_nonneg (Usage.isNonneg_start (Int64.le_refl 0))
  refine ⟨x, hx, ?_⟩
  intro sink first second
  obtain ⟨hlimited, hfaults, hpublish⟩ := limited_writer_truncates_stream.2.1 sink
  have hstream : ∀ xs, ∃ rest, rest ≠ [] ∧
      Writer.stream (x :: xs) = Utf8.encode x.line ++ rest := by
    intro xs
    refine ⟨Utf8.encode ['\n'] ++ Writer.stream xs, ?_, ?_⟩
    · exact List.append_ne_nil_of_left_ne_nil (by decide) _
    · rw [Writer.stream_cons, ← List.append_assoc]
      simp [Utf8.encode]
  have hlong : ∀ xs, (Utf8.encode x.line).length < (Writer.stream (x :: xs)).length := by
    intro xs
    obtain ⟨rest, hrest, hxs⟩ := hstream xs
    rw [hxs, List.length_append]
    exact Nat.lt_add_of_pos_right (List.length_pos_iff.mpr hrest)
  have hrun := limited_writer_truncates_stream.1 sink.writer id (Utf8.encode x.line).length []
  obtain ⟨-, -, hrefused, -⟩ := hrun [] [] _ x (hlimited _ rfl) rfl .nil hx
  obtain ⟨htaken, -, hrefused', -⟩ :=
    hrun [.start 0] [x] _ x (hlimited _ rfl) rfl (.cons hx .nil) hx
  obtain ⟨t, rest, fault, -, -, hfault, houtcome⟩ := hrefused (hlong [])
  obtain ⟨t', rest', fault', -, -, hfault', houtcome'⟩ := hrefused' (hlong [x])
  obtain rfl := hfaults _ _ _ hfault
  obtain rfl := hfaults _ _ _ hfault'
  have hfirst := hpublish [] (.start 0) .origin
  have hsecond := hpublish (sink.writer.publish [] (.start 0)).1 (.start 0) .origin
  have hboth := (congrArg (fun p : Publisher => p.publish (.start 0) .origin)
    (congrArg Call.next hfirst)).trans hsecond
  refine ⟨(congrArg Call.outcome hfirst).trans (congrArg Prod.snd houtcome),
    (congrArg Call.outcome hboth).trans (congrArg Prod.snd houtcome'),
    (congrArg Call.next hboth).trans ?_⟩
  obtain ⟨behind, -, hxs⟩ := hstream [x]
  rw [List.singleton_append, hxs, List.take_left] at htaken
  exact congrArg (fun written => Publisher.jsonLines (sink.holding written)) htaken

end IoWatch
