import IoWatch.Proofs.JsonStream
import IoWatch.Proofs.Readings
import IoWatch.Proofs.TickReport
import IoWatch.Session

/-!
# Readings never overflow

Counters of a file and times of a clock are not negative, and the mark of a failed reading stays out
of the window. So a usage that is fed by readings has no negative field, and answers everything,
whatever the files say and in whatever order the clock and the counters go. A tick that reads a file
is aborted by nobody but a recorder.

## Main definitions

* `Usage.Answers`: a usage answers everything that can be asked of it
* `Source.IsReading`: a source is a counters file, read at a time that is not negative
* `Delivery.RecorderAborts`: a recorder aborts in a delivery

## Main results

* `Usage.answers_of_nonneg`: a usage without negative fields answers everything
* `isNonneg_of_readSample`: what a file gives is not negative
* `isNonneg_run_of_readings`: a run that reads files keeps its usage without negative fields
* `abortedEvent_mem_run_iff`: where no source is broken, a tick is aborted by a publisher
* `recorderAborts_of_abortedEvent_mem_run`: and where they are files, by a recorder
* `readings_never_overflow`: all of this over a whole run
* `Plan.watch_never_aborts`: no tick of a session is aborted
-/

namespace IoWatch

/-! ## Answers -/

/-- A usage answers everything that can be asked of it: it has a snapshot, the rates over each span
and each of them by itself, and its differences are the true ones. -/
structure Usage.Answers (u : Usage) : Prop where
  snapshot : ∃ s, u.snapshot = .ok s
  rates : ∀ span, ∃ rates, u.rates span = .ok rates
  rate : ∀ span side unit, ∃ rate, u.rate span side unit = .ok rate
  readDelta : ∃ d, u.window.readDelta = .ok d ∧
    d.toInt = u.window.current.readBytes.toInt - u.window.previous.readBytes.toInt
  writeDelta : ∃ d, u.window.writeDelta = .ok d ∧
    d.toInt = u.window.current.writeBytes.toInt - u.window.previous.writeBytes.toInt
  elapsed : ∃ d, u.window.elapsed = .ok d ∧
    d.toInt = u.window.current.timestampMs.toInt - u.window.previous.timestampMs.toInt

theorem exists_difference_of_nonneg {a b : Int64} (ha : 0 ≤ a) (hb : 0 ≤ b) :
    ∃ d, difference a b = .ok d ∧ d.toInt = a.toInt - b.toInt := by
  refine ⟨_, difference_of_nonneg ha hb, ?_⟩
  rw [Int64.le_iff_toInt_le, Int64.toInt_zero] at ha hb
  have hlt := a.toInt_lt
  have hlt' := b.toInt_lt
  rw [Int64.toInt_ofInt_of_le] <;> omega

/-- A usage without negative fields answers everything. -/
theorem Usage.answers_of_nonneg {u : Usage} (h : u.IsNonneg) : u.Answers := by
  obtain ⟨s, hs⟩ := snapshot_of_nonneg h
  obtain ⟨-, -, hrecent, hlifetime⟩ := snapshot_eq_ok_iff.mp hs
  constructor
  case snapshot => exact ⟨s, hs⟩
  case rates =>
    intro span
    cases span with
    | recent => exact ⟨_, hrecent⟩
    | lifetime => exact ⟨_, hlifetime⟩
  case rate =>
    intro span side unit
    cases span with
    | recent => exact ⟨_, (rate_of_snapshot hs side unit).1⟩
    | lifetime => exact ⟨_, (rate_of_snapshot hs side unit).2⟩
  case readDelta =>
    exact exists_difference_of_nonneg h.window.current.readBytes h.window.previous.readBytes
  case writeDelta =>
    exact exists_difference_of_nonneg h.window.current.writeBytes h.window.previous.writeBytes
  case elapsed =>
    exact exists_difference_of_nonneg h.window.current.timestampMs h.window.previous.timestampMs

/-! ## Readings -/

theorem lt_of_readCounters {path : Path} {text : Except Fault (List Char)} {r w : Nat}
    (h : readCounters path text = .ok (r, w)) : r < Nat.pow 2 63 ∧ w < Nat.pow 2 63 := by
  cases text with
  | error fault => cases h
  | ok cs =>
    rw [readCounters, bothCounters] at h
    split at h
    · rename_i hparse
      cases h
      exact Counters.lt_of_parse hparse
    · cases h
    · cases h

theorem Sample.isNonneg_ofNat {clock : Int64} {r w : Nat} (hclock : 0 ≤ clock) (hr : r < Nat.pow 2 63)
    (hw : w < Nat.pow 2 63) : IsNonneg ⟨clock, .ofNat r, .ofNat w⟩ := by
  have hnonneg : ∀ n : Nat, n < Nat.pow 2 63 → 0 ≤ Int64.ofNat n := by
    intro n hn
    rw [Int64.le_iff_toInt_le, Int64.toInt_ofNat_of_lt hn, Int64.toInt_zero]
    exact Int.natCast_nonneg n
  exact ⟨hclock, hnonneg r hr, hnonneg w hw⟩

/-- What a file gives is not negative, unless it is the mark of a failure. -/
theorem isNonneg_of_readSample (path : Path) {clock : Int64} (hclock : 0 ≤ clock)
    (text : Except Fault (List Char))
    (hreadable : (readSample path clock text).sample.isUnreadable = false) :
    (readSample path clock text).sample.IsNonneg := by
  rw [readSample] at hreadable ⊢
  cases h : readCounters path text with
  | error e => rw [h, Sample.isUnreadable_unreadable] at hreadable; cases hreadable
  | ok counters =>
    obtain ⟨hr, hw⟩ := lt_of_readCounters h
    exact Sample.isNonneg_ofNat hclock hr hw

/-- A source is a counters file, read at a time that is not negative. What the file says is free. -/
inductive Source.IsReading : Source → Prop
  | countersFile (path : Path) {clock : Int64} (hclock : 0 ≤ clock)
      (text : Except Fault (List Char)) : IsReading (.countersFile path clock text)

namespace Source

variable {source : Source}

theorem IsReading.read_ne_none (h : source.IsReading) : source.read ≠ none := by
  cases h
  exact Option.some_ne_none _

theorem IsReading.isNonneg (h : source.IsReading) {x : Sample} (hx : source.sample? = some x) :
    x.IsNonneg := by
  have hreadable := isUnreadable_of_sample? hx
  obtain ⟨path, hclock, text⟩ := h
  rw [sample?] at hx
  obtain ⟨reading, hreading, hx⟩ := Option.bind_eq_some_iff.mp hx
  obtain rfl : readSample path _ text = reading := Option.some.inj hreading
  split at hx
  · cases hx
  · obtain rfl := Option.some.inj hx
    exact isNonneg_of_readSample path hclock text hreadable

end Source

namespace Scheduler

variable {s : Scheduler} {steps : List Step}

theorem exists_source_of_mem_samplesTaken {x : Sample} (h : x ∈ s.samplesTaken steps) :
    ∃ source, Step.tick source ∈ steps ∧ source.sample? = some x := by
  induction steps generalizing s with
  | nil => cases h
  | cons step steps ih =>
    rcases List.mem_append.mp h with hfirst | hlater
    · rw [Option.mem_toList, sampleTaken?] at hfirst
      split at hfirst
      · obtain ⟨source, hsource, hx⟩ := Option.bind_eq_some_iff.mp hfirst
        obtain rfl : step = .tick source := by cases step <;> simp_all [Step.source?]
        exact ⟨source, List.mem_cons_self, hx⟩
      · cases hfirst
    · obtain ⟨source, hmem, hx⟩ := ih hlater
      exact ⟨source, List.mem_cons_of_mem _ hmem, hx⟩

/-! ## Runs -/

/-- A run that reads files keeps its usage without negative fields. -/
theorem isNonneg_run_of_readings (hs : s.usage.IsNonneg)
    (hsteps : ∀ source, .tick source ∈ steps → source.IsReading) :
    (s.run steps).1.usage.IsNonneg ∧ ∀ d ∈ s.deliveries steps, d.usage.IsNonneg := by
  have hsamples : ∀ x ∈ s.samplesTaken steps, x.IsNonneg := by
    intro x hx
    obtain ⟨source, hmem, hsource⟩ := exists_source_of_mem_samplesTaken hx
    exact (hsteps source hmem).isNonneg hsource
  refine ⟨?_, isNonneg_of_mem_deliveries hs hsamples⟩
  rw [run_usage]
  exact hs.updateAll fun x hx _ => hsamples x hx

/-- Where its source is not broken, a tick is aborted if a publisher aborts in it. -/
theorem abortedEvent_mem_step_iff {step : Step}
    (hsource : ∀ source, step = .tick source → source.read ≠ none) :
    abortedEvent ∈ (s.step step).2.1 ↔
      ∃ d ∈ s.delivery? step, d.broadcast.outcome.isAborted = true := by
  cases hs : step.source? with
  | none =>
    rw [s.delivery?_of_source?_eq_none step hs]
    refine iff_of_false ?_ (by simp)
    intro h
    rcases s.event_of_mem_step step hs h with ⟨intervalMs, h⟩ | h | h | h | ⟨w, -, -, h⟩ <;>
      simp [abortedEvent, startedEvent, restartingEvent, exitingEvent, stoppedEvent,
        strayAbortEvent] at h
  | some source =>
    obtain rfl : step = .tick source := by cases step <;> simp_all [Step.source?]
    rw [delivery?, sampleTaken?_tick]
    cases hw : s.liveWorker? with
    | none => simp [(s.step_tick_of_not_live hw source).2.1]
    | some w =>
      have hreport : abortedEvent ∈ (s.tick source).2 ↔
          abortedEvent ∈ (s.tick source).2.filter Event.reportsTick := by
        rw [List.mem_filter]
        exact (and_iff_left rfl).symm
      have hl := s.lifecycle_of_liveWorker? hw
      rw [s.step_tick_of_live hw source, hreport]
      cases hx : source.sample? with
      | none =>
        have hread : source.read.isNone = false := by
          rw [Option.isNone_eq_false_iff, Option.isSome_iff_ne_none]
          exact hsource source rfl
        simp [filter_reportsTick_of_no_sample hl hx, hread, abortedEvent, skippedEvent]
      | some x =>
        rw [filter_reportsTick_of_sample hl hx, List.mem_singleton, eq_comm,
          outcomeEvent_eq_abortedEvent_iff]
        simp

theorem abortedEvent_mem_run_iff
    (hsteps : ∀ source, .tick source ∈ steps → source.read ≠ none) :
    abortedEvent ∈ (s.run steps).2 ↔
      ∃ d ∈ s.deliveries steps, d.broadcast.outcome.isAborted = true := by
  induction steps generalizing s with
  | nil => simp [run, deliveries]
  | cons step steps ih =>
    have hfirst := s.abortedEvent_mem_step_iff fun source h =>
      hsteps source (h ▸ List.mem_cons_self)
    have hlater := ih (s := (s.step step).1) fun source h =>
      hsteps source (List.mem_cons_of_mem _ h)
    rw [run_log_cons, List.mem_append, hfirst, hlater, deliveries]
    simp [or_and_right, exists_or]

end Scheduler

/-- A recorder aborts in a delivery. -/
def Delivery.RecorderAborts (d : Delivery) : Prop :=
  ∃ (q : Nat) (r : Recorder), d.publishers[q]? = some (.recorder r) ∧
    ∃ call, d.calls[q]? = some call ∧ call.outcome.isAborted = true

theorem Delivery.recorderAborts_of_isAborted {d : Delivery} {x : Snapshot}
    (hx : d.usage.snapshot = .ok x) (h : d.broadcast.outcome.isAborted = true) :
    d.RecorderAborts := by
  obtain ⟨call, hmem, habort⟩ := isAborted_iff.mp h
  obtain ⟨q, hcall⟩ := List.mem_iff_getElem?.mp hmem
  obtain ⟨r, hr⟩ := exists_recorder_of_call hx hcall habort
  exact ⟨q, r, hr, call, hcall, habort⟩

namespace Scheduler

/-- A tick that reads a file is aborted by nobody but a recorder. -/
theorem recorderAborts_of_abortedEvent_mem_run {s : Scheduler} {steps : List Step}
    (hs : s.usage.IsNonneg) (hsteps : ∀ source, .tick source ∈ steps → source.IsReading)
    (h : abortedEvent ∈ (s.run steps).2) : ∃ d ∈ s.deliveries steps, d.RecorderAborts := by
  rw [abortedEvent_mem_run_iff fun source hmem => (hsteps source hmem).read_ne_none] at h
  obtain ⟨d, hd, habort⟩ := h
  obtain ⟨x, hx⟩ := Usage.snapshot_of_nonneg ((isNonneg_run_of_readings hs hsteps).2 d hd)
  exact ⟨d, hd, Delivery.recorderAborts_of_isAborted hx habort⟩

theorem abortedEvent_notMem_run_of_readings {s : Scheduler} {steps : List Step}
    (hs : s.usage.IsNonneg) (hsteps : ∀ source, .tick source ∈ steps → source.IsReading)
    (hpublishers : ∀ r, .recorder r ∉ s.publishers) : abortedEvent ∉ (s.run steps).2 := by
  intro h
  obtain ⟨d, hd, q, r, hr, -⟩ := recorderAborts_of_abortedEvent_mem_run hs hsteps h
  obtain ⟨r₀, hr₀, -⟩ := exists_recorder_of_mem_deliveries hd hr
  exact hpublishers r₀ (List.mem_of_getElem? hr₀)

/-- **Readings never overflow.** Take observations that begin at a time that is not negative, and
any readings of counters files, whatever the files say and in whatever order the times come. A usage
that has taken them answers everything. Over every run of a new scheduler that reads such files, the
usage answers everything at each point and in each delivery, no publisher that reads the rates
aborts, and if a tick is reported as aborted, a recorder has aborted in some delivery; so no tick
is, where there are no recorders. -/
theorem readings_never_overflow {sinceMs : Int64} (hsince : 0 ≤ sinceMs) :
    (∀ sources : List Source, (∀ source ∈ sources, source.IsReading) →
      ((Usage.start sinceMs).updateAll
        (sources.filterMap fun source => source.read.map Reading.sample)).Answers) ∧
    ∀ (intervalMs : UInt64) (publishers : List Publisher) (steps : List Step),
      (∀ source, .tick source ∈ steps → source.IsReading) →
      let s := create intervalMs (.start sinceMs) publishers
      (∀ k, (s.run (steps.take k)).1.usage.Answers) ∧
      (∀ d ∈ s.deliveries steps, d.usage.Answers ∧ ∀ p ∈ d.publishers, (∀ r, p ≠ .recorder r) →
        (p.publish d.usage d.sample).outcome.isAborted = false) ∧
      (abortedEvent ∈ (s.run steps).2 → ∃ d ∈ s.deliveries steps, d.RecorderAborts) ∧
      ((∀ r, .recorder r ∉ publishers) → abortedEvent ∉ (s.run steps).2) := by
  have hstart := Usage.isNonneg_start hsince
  constructor
  · intro sources hsources
    refine Usage.answers_of_nonneg (hstart.updateAll ?_)
    intro x hx hreadable
    obtain ⟨source, hmem, hx⟩ := List.mem_filterMap.mp hx
    obtain ⟨path, hclock, text⟩ := hsources source hmem
    obtain rfl : (readSample path _ text).sample = x := Option.some.inj hx
    exact isNonneg_of_readSample path hclock text hreadable
  · intro intervalMs publishers steps hsteps s
    refine ⟨?_, ?_, recorderAborts_of_abortedEvent_mem_run hstart hsteps,
      abortedEvent_notMem_run_of_readings (s := s) hstart hsteps⟩
    · intro k
      have hprefix : ∀ source, .tick source ∈ steps.take k → source.IsReading :=
        fun source hmem => hsteps source (List.mem_of_mem_take hmem)
      exact Usage.answers_of_nonneg (isNonneg_run_of_readings hstart hprefix).1
    · intro d hd
      have hd := (isNonneg_run_of_readings hstart hsteps).2 d hd
      obtain ⟨x, hx⟩ := Usage.snapshot_of_nonneg hd
      exact ⟨Usage.answers_of_nonneg hd, fun p _ hp => Publisher.isAborted_publish hx hp⟩

/-- The largest counters, a file that is gone, a counter that has shrunk to nothing, and a clock
that goes back to the first instant. -/
theorem readings_never_overflow_of_extremes :
    let path := Path.ofString "/proc/7/io"
    let file (clock : Int64) (text : String) : Step :=
      .tick (.countersFile path clock (textOf (.ok (Utf8.encode text.toList))))
    let steps : List Step := [.start none (.ok ()),
      file 9223372036854775807 "read_bytes: 9223372036854775807\nwrite_bytes: 0\n",
      .tick (.countersFile path 5 (.error .notFound)),
      file 0 "read_bytes: 0\nwrite_bytes: 9223372036854775807\n"]
    let after :=
      (create 10 (.start 9223372036854775807) [.rateLog, .jsonLines .unlimited]).run steps
    after.1.usage.Answers ∧ abortedEvent ∉ after.2 := by
  intro path file steps after
  have hsteps : ∀ source, .tick source ∈ steps → source.IsReading := by
    intro source hmem
    simp only [steps, file, List.mem_cons, reduceCtorEq, Step.tick.injEq, List.not_mem_nil,
      or_false, false_or] at hmem
    rcases hmem with rfl | rfl | rfl <;> exact .countersFile path (by decide) _
  clear_value steps
  obtain ⟨-, hrun⟩ := readings_never_overflow (show (0 : Int64) ≤ 9223372036854775807 by decide)
  obtain ⟨hanswers, -, -, hlog⟩ := hrun 10 [.rateLog, .jsonLines .unlimited] steps hsteps
  have hwhole := hanswers steps.length
  rw [List.take_length] at hwhole
  exact ⟨hwhole, hlog (by simp)⟩

end Scheduler

/-- No tick of a session is aborted: it reads the counters file of its process and has no
recorders. -/
theorem Plan.watch_never_aborts (p : Plan) {sinceMs : Int64} (hsince : 0 ≤ sinceMs) (output : Sink)
    {readings : List (Int64 × Except Fault (List Char))}
    (hreadings : ∀ reading ∈ readings, 0 ≤ reading.1) :
    Scheduler.abortedEvent ∉
      (p.watch sinceMs output (readings.map fun reading => p.source reading.1 reading.2)).2 := by
  refine Scheduler.abortedEvent_notMem_run_of_readings (Usage.isNonneg_start hsince) ?_ ?_
  · intro source hmem
    obtain ⟨reading, hreading, rfl⟩ :
        ∃ reading ∈ readings, p.source reading.1 reading.2 = source := by
      simpa using hmem
    exact .countersFile _ (hreadings reading hreading) _
  · intro r
    change Publisher.recorder r ∉ p.publishers output
    rw [publishers]
    split <;> simp

end IoWatch
