import IoWatch.Proofs.Step
import Mathlib.Data.List.Basic

/-!
# From the reader to the publishers

What a run takes from its readers, and whom it hands it to. A run is the sequence of its deliveries:
they alone move the usage, call the publishers and report rates.

## Main definitions

* `Scheduler.samplesTaken`: the readable samples that a run takes, in order
* `Scheduler.deliveries`: the deliveries that a run makes, in order
* `Publisher.serve`: a publisher after the calls of a list of deliveries

## Main results

* `run_usage`, `getElem?_run_publishers`, `filter_reportsRates_run`: what a run leaves of the usage,
  of each publisher and in the log
* `run_delivers_each_sample_once`: no sample is lost, duplicated or reordered
-/

namespace IoWatch

/-- A publisher after a list of deliveries that reach it. -/
def Publisher.serve (p : Publisher) (ds : List Delivery) : Publisher := ds.foldl receive p

namespace Publisher

@[simp] theorem serve_nil (p : Publisher) : p.serve [] = p := rfl

@[simp] theorem serve_cons (p : Publisher) (d : Delivery) (ds : List Delivery) :
    p.serve (d :: ds) = (p.receive d).serve ds := rfl

theorem serve_append (p : Publisher) (earlier later : List Delivery) :
    p.serve (earlier ++ later) = (p.serve earlier).serve later := List.foldl_append

/-- A recorder has seen exactly the samples it was called with. -/
theorem serve_recorder (r : Recorder) (ds : List Delivery) :
    (recorder r).serve ds = recorder { r with seen := r.seen ++ ds.map Delivery.sample } := by
  induction ds generalizing r with
  | nil => simp
  | cons d ds ih =>
    have hreceive : (recorder r).receive d = recorder { r with seen := r.seen ++ [d.sample] } := rfl
    rw [serve_cons, hreceive, ih]
    simp

end Publisher

namespace Scheduler

/-- The readable samples that a run takes, in order. -/
def samplesTaken (s : Scheduler) : List Step → List Sample
  | [] => []
  | step :: steps => (s.sampleTaken? step).toList ++ (s.step step).1.samplesTaken steps

/-- The deliveries that a run makes, in order. -/
def deliveries (s : Scheduler) : List Step → List Delivery
  | [] => []
  | step :: steps => (s.delivery? step).toList ++ (s.step step).1.deliveries steps

/-- Every sample that is taken is delivered. -/
theorem map_sample_deliveries (s : Scheduler) (steps : List Step) :
    (s.deliveries steps).map Delivery.sample = s.samplesTaken steps := by
  induction steps generalizing s with
  | nil => rfl
  | cons step steps ih =>
    rw [deliveries, samplesTaken, List.map_append, ih, delivery?]
    cases s.sampleTaken? step <;> rfl

/-- A publisher is called by a step if the step makes a delivery that reaches it. -/
theorem getElem?_step_publishers (s : Scheduler) (step : Step) (p : Nat) :
    (s.step step).1.publishers[p]? =
      s.publishers[p]?.map (·.serve ((s.delivery? step).toList.filter (·.reaches p))) := by
  rw [step_publishers]
  cases hd : s.delivery? step with
  | none => simp
  | some d =>
    have hps : d.publishers = s.publishers := by
      obtain ⟨x, -, rfl⟩ := Option.map_eq_some_iff.mp hd
      rfl
    simp only [Option.elim_some, Delivery.broadcast, getElem?_publishAll, hps, Option.toList_some]
    congr 1
    funext q
    cases hr : d.reaches p with
    | true =>
      rw [Delivery.reaches, Delivery.calls, hps] at hr
      simp [hr, Delivery.reaches, Delivery.calls, hps, Publisher.receive]
    | false =>
      rw [Delivery.reaches, Delivery.calls, hps] at hr
      simp [hr, Delivery.reaches, Delivery.calls, hps]

/-! ## Runs -/

section Run

variable (s : Scheduler)

theorem run_cons (step : Step) (steps : List Step) :
    (s.run (step :: steps)).1 = ((s.step step).1.run steps).1 := rfl

theorem run_append (earlier later : List Step) :
    s.run (earlier ++ later) =
      (((s.run earlier).1.run later).1, (s.run earlier).2 ++ ((s.run earlier).1.run later).2) := by
  induction earlier generalizing s with
  | nil => rfl
  | cons step steps ih => simp [run, ih]

theorem run_append_fst (earlier later : List Step) :
    (s.run (earlier ++ later)).1 = ((s.run earlier).1.run later).1 := by rw [run_append]

/-- A run takes its samples into the usage, one after the other. -/
theorem run_usage (steps : List Step) :
    (s.run steps).1.usage = s.usage.updateAll (s.samplesTaken steps) := by
  induction steps generalizing s with
  | nil => rfl
  | cons step steps ih =>
    rw [run_cons, ih, samplesTaken, step_usage]
    cases s.sampleTaken? step <;> rfl

theorem run_log_cons (step : Step) (steps : List Step) :
    (s.run (step :: steps)).2 = (s.step step).2.1 ++ ((s.step step).1.run steps).2 := rfl

/-- Of the log of a run, what its deliveries log is what reports rates. -/
theorem filter_reportsRates_run (steps : List Step) :
    (s.run steps).2.filter Event.reportsRates = (s.deliveries steps).flatMap Delivery.logged := by
  induction steps generalizing s with
  | nil => rfl
  | cons step steps ih =>
    rw [run_log_cons, List.filter_append, ih, filter_reportsRates_step, deliveries,
      List.flatMap_append]

/-- A run calls a publisher once for each of its deliveries that reaches it, in order. -/
theorem getElem?_run_publishers (steps : List Step) (p : Nat) :
    (s.run steps).1.publishers[p]? =
      s.publishers[p]?.map (·.serve ((s.deliveries steps).filter (·.reaches p))) := by
  induction steps generalizing s with
  | nil => simp [run, deliveries]
  | cons step steps ih =>
    rw [run_cons, ih, getElem?_step_publishers, deliveries, List.filter_append]
    cases s.publishers[p]? <;> simp [Publisher.serve_append]

theorem length_step_publishers (step : Step) :
    (s.step step).1.publishers.length = s.publishers.length := by
  rw [step_publishers]
  cases hd : s.delivery? step with
  | none => rfl
  | some d =>
    obtain ⟨x, -, rfl⟩ := Option.map_eq_some_iff.mp hd
    exact length_publishAll ..

/-- Every delivery of a run goes to as many publishers as the scheduler has, so positions keep their
meaning. -/
theorem length_publishers_of_mem_deliveries {steps : List Step} {d : Delivery}
    (hd : d ∈ s.deliveries steps) : d.publishers.length = s.publishers.length := by
  induction steps generalizing s with
  | nil => cases hd
  | cons step steps ih =>
    rcases List.mem_append.mp hd with hfirst | hlater
    · obtain ⟨x, -, rfl⟩ := Option.map_eq_some_iff.mp (Option.mem_toList.mp hfirst)
      rfl
    · rw [ih _ hlater, length_step_publishers]

/-- The publisher at a position is called once with the sample of each delivery that reaches it. -/
theorem filterMap_handedTo_deliveries (steps : List Step) {p : Nat} (hp : p < s.publishers.length) :
    (s.deliveries steps).filterMap (Delivery.handedTo p) =
      ((s.deliveries steps).filter (·.reaches p)).map Delivery.sample := by
  rw [← List.filterMap_eq_map, List.filterMap_filter]
  refine List.filterMap_congr fun d hd => ?_
  rw [d.handedTo_eq (by rwa [s.length_publishers_of_mem_deliveries hd])]
  rfl

end Run

/-- **No sample is lost, duplicated or reordered.** Over every run of a new scheduler, restarts
included, the window is moved by exactly the samples that the run takes, whatever the publishers
make of them; and the publisher at a position is called exactly once for each of these samples on
which no publisher before it aborts, in order, and for nothing else. Its state is what these calls
leave (a recorder has seen exactly these samples), and what the calls log is in the log. -/
theorem run_delivers_each_sample_once (intervalMs : UInt64) (sinceMs : Int64)
    (publishers : List Publisher) (steps : List Step) :
    let s := create intervalMs (.start sinceMs) publishers
    let after := (s.run steps).1
    let log := (s.run steps).2
    after.usage.window = Window.initial.advanceAll (s.samplesTaken steps) ∧
      (s.deliveries steps).map Delivery.sample = s.samplesTaken steps ∧
      log.filter Event.reportsRates = (s.deliveries steps).flatMap Delivery.logged ∧
      ∀ p publisher, publishers[p]? = some publisher →
        (s.deliveries steps).filterMap (Delivery.handedTo p) =
            ((s.deliveries steps).filter (·.reaches p)).map Delivery.sample ∧
          after.publishers[p]? =
            some (publisher.serve ((s.deliveries steps).filter (·.reaches p))) ∧
          ∀ r, publisher = .recorder r →
            after.publishers[p]? = some (.recorder { r with
              seen := r.seen ++ (s.deliveries steps).filterMap (Delivery.handedTo p) }) := by
  intro s after log
  refine ⟨?_, s.map_sample_deliveries steps, s.filter_reportsRates_run steps, ?_⟩
  · rw [s.run_usage, Usage.updateAll_window]
    rfl
  · intro p publisher hp
    have hlt : p < s.publishers.length := (List.getElem?_eq_some_iff.mp hp).1
    have hcalled := s.filterMap_handedTo_deliveries steps hlt
    have hafter : after.publishers[p]? =
        some (publisher.serve ((s.deliveries steps).filter (·.reaches p))) := by
      rw [s.getElem?_run_publishers steps p]
      exact congrArg _ hp
    refine ⟨hcalled, hafter, ?_⟩
    rintro r rfl
    rw [hafter, Publisher.serve_recorder, hcalled]

/-- A recorder behind one that aborts on the first of two samples and asks for a stop on the
second: it is called with the second sample only. -/
theorem run_delivers_behind_abort :
    let aborts : Recorder :=
      ⟨[], fun n => ⟨n = 2, if n = 1 then .aborted .publisher else .published⟩⟩
    let keeps : Recorder := ⟨[], fun _ => ⟨false, .published⟩⟩
    let s := create 10 (.start 0) [.recorder aborts, .recorder keeps]
    let steps : List Step := [.start none (.ok ()), .tick (.sample ⟨1, 1, 1⟩),
      .tick (.sample .unreadable), .tick .broken, .start (some 20) (.ok ()),
      .tick (.sample ⟨2, 5, 6⟩), .tick (.sample ⟨3, 7, 7⟩)]
    (s.deliveries steps).filterMap (Delivery.handedTo 1) = [⟨2, 5, 6⟩] ∧
      (s.run steps).1.publishers[1]? = some (.recorder { keeps with seen := [⟨2, 5, 6⟩] }) := by
  intro aborts keeps s steps
  have hseen : (s.deliveries steps).filterMap (Delivery.handedTo 1) = [⟨2, 5, 6⟩] := by decide
  have hafter := ((run_delivers_each_sample_once 10 0 [.recorder aborts, .recorder keeps]
    steps).2.2.2 1 (.recorder keeps) rfl).2.2 keeps rfl
  exact ⟨hseen, by rw [hafter, hseen]; rfl⟩

end Scheduler

end IoWatch
