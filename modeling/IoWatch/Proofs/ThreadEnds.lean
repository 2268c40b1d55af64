import IoWatch.Proofs.Step
import IoWatch.Proofs.Threads

/-!
# How the threads of workers end

A tick catches whatever aborts in it, so the thread of a worker ends with the stop message and in no
other way. Whoever waits for it finds that it has returned, and has nothing to log. This holds
whatever the threads do and whatever the publishers ask for.

## Main definitions

* `Config.IsIntact`: no abort has ended the thread of a worker, and none has been reported

## Main results

* `Config.IsIntact.callStep`, `Config.IsIntact.tickStep`: it stays so
* `threadEnd_eq_returned`: every thread that has ended has returned
* `strayAbortEvent_notMem_log`: an abort outside a tick is never reported
-/

namespace IoWatch

namespace Threads

open Scheduler

section

variable {n : Nat} {asks : Publisher → Sample → List Request} {t : Thread n} {k : Nat}
  {c c' : Config n}

/-- No abort has ended the thread of a worker, and none has been reported. -/
structure Config.IsIntact (c : Config n) : Prop where
  ended : ∀ k threadEnd, c.phase k = .ended threadEnd → threadEnd = .returned ()
  /-- A publisher logs nothing but rates. -/
  todo : ∀ k x p soFar todo outcome, c.phase k = .serving x p soFar todo outcome →
    ∀ e, Deed.log e ∈ todo → e.reportsRates = true
  log : strayAbortEvent ∉ c.log

theorem strayAbortEvent_notMem_events {source : Source} {reading : Reading}
    (h : source.read = some reading) : strayAbortEvent ∉ reading.events := by
  intro hmem
  have hmessage : strayAbortEvent.message = "Process I/O counters unreadable" := by
    apply @Source.message_of_mem_events source
    simpa [Source.events, h] using hmem
  exact absurd hmessage (by decide)

theorem strayAbortEvent_ne_outcomeEvent (o : Outcome) : strayAbortEvent ≠ outcomeEvent o := by
  cases o <;> simp [strayAbortEvent, outcomeEvent, publishedEvent, failedEvent, abortedEvent]

theorem reportsRates_of_mem_deeds {publisher : Publisher} {usage : Usage} {x : Sample} {e : Event}
    (h : .log e ∈ deeds asks publisher usage x) : e.reportsRates = true := by
  rcases List.mem_append.mp h with heffect | hasked
  · obtain ⟨effect, heffect, heq⟩ := List.mem_map.mp heffect
    refine Publisher.reportsRates_of_mem_logged (List.mem_filterMap.mpr ⟨effect, heffect, ?_⟩)
    cases effect <;> simp_all [Deed.ofEffect]
  · obtain ⟨r, -, heq⟩ := List.mem_map.mp hasked
    cases heq

namespace Config.IsIntact

theorem create (usage : Usage) (publishers : List Publisher) :
    (Config.create n usage publishers).IsIntact where
  ended k threadEnd h := by cases h
  todo k x p soFar todo outcome h := by cases h
  log := List.not_mem_nil

/-- A call joins a thread that has returned, and logs nothing of it. -/
theorem callStep (hc : c.IsIntact) (h : CallStep t c c') : c'.IsIntact where
  ended k threadEnd := by
    have hended := hc.ended k threadEnd
    cases h with
    | spawn => grind [Function.update_apply]
    | _ => exact hended
  todo k x p soFar todo outcome := by
    have htodo := hc.todo k x p soFar todo outcome
    cases h with
    | spawn => grind [Function.update_apply]
    | _ => exact htodo
  log := by
    have hlog := hc.log
    cases h with
    | join purpose k h hended =>
      obtain rfl := hc.ended k _ hended
      simpa [joined] using hlog
    | startInstead | install | stopped =>
      simpa [strayAbortEvent, restartingEvent, startedEvent, stoppedEvent] using hlog
    | _ => exact hlog

/-- A tick returns, whatever comes of its cycle. -/
theorem tickStep (hc : c.IsIntact) (h : TickStep asks k c c') : c'.IsIntact where
  ended j threadEnd := by
    have hended := hc.ended j threadEnd
    cases h <;> grind [Function.update_apply]
  todo j x p soFar todo outcome := by
    have htodo := hc.todo j
    cases h with
    | publish =>
      intro hj e he
      by_cases hjk : j = k
      · subst hjk
        obtain ⟨-, -, -, rfl, -⟩ := by simpa using hj
        exact reportsRates_of_mem_deeds he
      · exact htodo x p soFar todo outcome (by simpa [hjk] using hj) e he
    | _ => grind [Function.update_apply]
  log := by
    have hlog := hc.log
    cases h with
    | readNothing source reading _ _ hread | readSample source reading _ _ hread =>
      have hevents := strayAbortEvent_notMem_events hread
      simp_all [reportEvent, strayAbortEvent, skippedEvent]
    | serveLog x p soFar outcome event todo _ hk =>
      have hrates := hc.todo k x p soFar _ outcome hk event List.mem_cons_self
      have hne : strayAbortEvent ≠ event := by
        rintro rfl
        cases hrates
      simp [hlog, hne]
    | finish x p soFar => simp [hlog, strayAbortEvent_ne_outcomeEvent]
    | readBroken | serveAbort => simpa [strayAbortEvent, abortedEvent] using hlog
    | exit => simpa [strayAbortEvent, exitingEvent] using hlog
    | _ => exact hlog

theorem step (hc : c.IsIntact) (h : Step asks c c') : c'.IsIntact := by
  cases h with
  | act t h =>
    cases h with
    | call h => exact hc.callStep h
    | tick h => exact hc.tickStep h
  | begin h =>
    cases h with
    | call => exact ⟨hc.ended, hc.todo, hc.log⟩
    | tick k =>
      refine ⟨fun j => ?_, fun j => ?_, hc.log⟩
      · have hended := hc.ended j
        grind [Function.update_apply]
      · have htodo := hc.todo j
        grind [Function.update_apply]

end Config.IsIntact

theorem isIntact_of_reachable (h : Reachable asks c) : c.IsIntact := by
  obtain ⟨usage, publishers, hsteps⟩ := h
  induction hsteps with
  | refl => exact .create usage publishers
  | tail _ hstep ih => exact ih.step hstep

/-- **A thread that has ended has returned.** -/
theorem threadEnd_eq_returned (hc : Reachable asks c) {threadEnd : Completion Unit}
    (h : c.phase k = .ended threadEnd) : threadEnd = .returned () :=
  (isIntact_of_reachable hc).ended k threadEnd h

/-- **An abort outside a tick is never reported.** -/
theorem strayAbortEvent_notMem_log (hc : Reachable asks c) : strayAbortEvent ∉ c.log :=
  (isIntact_of_reachable hc).log

end

end Threads

end IoWatch
