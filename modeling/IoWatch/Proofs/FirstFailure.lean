import IoWatch.Proofs.TickReport

/-!
# Everyone is served, and the first failure is reported

A broadcast calls its publishers one after the other. A failure keeps nobody from being called, and
the first one is what the broadcast reports, whatever fails behind it. An abort ends the broadcast
where it is: who stands behind it is not called, and the failures before it are not reported.

## Main results

* `callsOf_of_calm`, `callsOf_of_aborted`: the calls of a broadcast, without and with an abort
* `outcome_eq_published_iff`, `outcome_eq_failed_iff`: what is reported where nobody aborts
* `broadcast_reports_first_failure`: what a broadcast leaves behind and what it reports
-/

namespace IoWatch

namespace Call

variable {call : Call}

theorem error?_eq_some_iff {error : PublishError} :
    call.error? = some error ↔ call.outcome = .failed error := by
  unfold error?
  cases call.outcome <;> simp

theorem error?_eq_none_iff (h : call.outcome.isAborted = false) :
    call.error? = none ↔ call.outcome = .published := by
  unfold error?
  cases ho : call.outcome with
  | aborted reason =>
    rw [ho] at h
    cases h
  | _ => simp

end Call

variable {ps : List Publisher} {usage : Usage} {sample : Sample}

/-! ## Who is called -/

/-- Where nobody aborts, everyone is called once and in order. -/
theorem callsOf_of_calm (h : ∀ p ∈ ps, (p.publish usage sample).outcome.isAborted = false) :
    callsOf ps usage sample = ps.map (·.publish usage sample) := by
  induction ps with
  | nil => rfl
  | cons p ps ih =>
    rw [List.forall_mem_cons] at h
    rw [callsOf_cons_of_not_aborted h.1, ih h.2, List.map_cons]

/-- The first publisher that aborts is the last one that is called. -/
theorem callsOf_of_aborted {before behind : List Publisher} {p : Publisher}
    (hbefore : ∀ q ∈ before, (q.publish usage sample).outcome.isAborted = false)
    (hp : (p.publish usage sample).outcome.isAborted = true) :
    callsOf (before ++ p :: behind) usage sample =
      (before ++ [p]).map (·.publish usage sample) := by
  induction before with
  | nil => exact callsOf_cons_of_aborted hp
  | cons q before ih =>
    rw [List.forall_mem_cons] at hbefore
    rw [List.cons_append, callsOf_cons_of_not_aborted hbefore.1, ih hbefore.2, List.cons_append,
      List.map_cons]

/-! ## What is reported -/

section Calm

variable (h : ∀ p ∈ ps, (p.publish usage sample).outcome.isAborted = false)
include h

theorem publishAll_outcome_of_calm :
    (publishAll ps usage sample).outcome =
      (ps.findSome? fun p => (p.publish usage sample).error?).elim .published .failed := by
  have hcalm : ∀ call ∈ ps.map (·.publish usage sample), call.outcome.isAborted = false :=
    List.forall_mem_map.mpr h
  rw [publishAll_outcome, callsOf_of_calm h, Outcome.foldr_of_calm hcalm, List.findSome?_map]
  rfl

theorem outcome_eq_published_iff :
    (publishAll ps usage sample).outcome = .published ↔
      ∀ p ∈ ps, (p.publish usage sample).outcome = .published := by
  have hnone : (publishAll ps usage sample).outcome = .published ↔
      (ps.findSome? fun p => (p.publish usage sample).error?) = none := by
    rw [publishAll_outcome_of_calm h]
    cases ps.findSome? fun p => (p.publish usage sample).error? <;> simp
  rw [hnone, List.findSome?_eq_none_iff]
  exact forall₂_congr fun p hp => Call.error?_eq_none_iff (h p hp)

theorem outcome_eq_failed_iff {error : PublishError} :
    (publishAll ps usage sample).outcome = .failed error ↔
      ∃ before p behind, ps = before ++ p :: behind ∧
        (∀ q ∈ before, (q.publish usage sample).outcome = .published) ∧
        (p.publish usage sample).outcome = .failed error := by
  have hsome : (publishAll ps usage sample).outcome = .failed error ↔
      (ps.findSome? fun p => (p.publish usage sample).error?) = some error := by
    rw [publishAll_outcome_of_calm h]
    cases ps.findSome? fun p => (p.publish usage sample).error? <;> simp
  rw [hsome, List.findSome?_eq_some_iff]
  refine exists₃_congr fun before p behind => and_congr_right fun hps => ?_
  rw [Call.error?_eq_some_iff, and_comm]
  refine and_congr_left fun _ => forall₂_congr fun q hq => ?_
  exact Call.error?_eq_none_iff (h q (by simp [hps, hq]))

end Calm

/-- An abort is the outcome, whatever comes before it. -/
theorem Outcome.andThen_aborted {outcome : Outcome} (h : outcome.isAborted = false)
    (reason : Abort) : outcome.andThen (.aborted reason) = .aborted reason := by
  cases outcome with
  | aborted reason' => cases h
  | _ => rfl

theorem publishAll_outcome_of_aborted {before behind : List Publisher} {p : Publisher}
    {reason : Abort} (hbefore : ∀ q ∈ before, (q.publish usage sample).outcome.isAborted = false)
    (hp : (p.publish usage sample).outcome = .aborted reason) :
    (publishAll (before ++ p :: behind) usage sample).outcome = .aborted reason := by
  induction before with
  | nil =>
    rw [List.nil_append, publishAll_cons_of_aborted (by rw [hp]; rfl)]
    exact hp
  | cons q before ih =>
    rw [List.forall_mem_cons] at hbefore
    rw [List.cons_append, publishAll_cons_of_not_aborted hbefore.1, ih hbefore.2,
      Outcome.andThen_aborted hbefore.1]

/-- **Everyone is served, and the first failure is reported.** Take any list of publishers and any
sample. Where nobody aborts, everyone is called once and in order; the outcome is that the sample
was published exactly when everyone has published it, and it is a failure with an error exactly when
that is the error of the first one that fails. Where somebody aborts, those before and the first one
that does are called once and in order, and nobody behind; the outcome is the abort, whoever has
failed before it. -/
theorem broadcast_reports_first_failure (ps : List Publisher) (usage : Usage) (sample : Sample) :
    ((∀ p ∈ ps, (p.publish usage sample).outcome.isAborted = false) →
      (publishAll ps usage sample).publishers = ps.map (fun p => (p.publish usage sample).next) ∧
      (publishAll ps usage sample).effects =
        ps.flatMap (fun p => (p.publish usage sample).effects) ∧
      ((publishAll ps usage sample).outcome = .published ↔
        ∀ p ∈ ps, (p.publish usage sample).outcome = .published) ∧
      ∀ error, (publishAll ps usage sample).outcome = .failed error ↔
        ∃ before p behind, ps = before ++ p :: behind ∧
          (∀ q ∈ before, (q.publish usage sample).outcome = .published) ∧
          (p.publish usage sample).outcome = .failed error) ∧
    ∀ before p behind reason, ps = before ++ p :: behind →
      (∀ q ∈ before, (q.publish usage sample).outcome.isAborted = false) →
      (p.publish usage sample).outcome = .aborted reason →
      (publishAll ps usage sample).publishers =
        (before ++ [p]).map (fun q => (q.publish usage sample).next) ++ behind ∧
      (publishAll ps usage sample).effects =
        (before ++ [p]).flatMap (fun q => (q.publish usage sample).effects) ∧
      (publishAll ps usage sample).outcome = .aborted reason := by
  constructor
  · intro h
    refine ⟨?_, ?_, outcome_eq_published_iff h, fun error => outcome_eq_failed_iff h⟩
    · rw [publishAll_publishers, callsOf_of_calm h, List.length_map, List.drop_length,
        List.append_nil, List.map_map]
      rfl
    · rw [publishAll_effects, callsOf_of_calm h, List.flatMap_map]
  · rintro before p behind reason rfl hbefore hp
    have haborts : (p.publish usage sample).outcome.isAborted = true := by
      rw [hp]
      rfl
    refine ⟨?_, ?_, publishAll_outcome_of_aborted hbefore hp⟩
    · rw [publishAll_publishers, callsOf_of_aborted hbefore haborts]
      simp
    · rw [publishAll_effects, callsOf_of_aborted hbefore haborts, List.flatMap_map]

/-- Two publishers fail behind one that does not; and a publisher aborts behind one that asks for a
stop and fails, so that the last one is not called. -/
theorem broadcast_reports_first_failure_or_abort :
    let react (stops : Bool) (outcome : Outcome) (seen : List Sample) : Publisher :=
      .recorder ⟨seen, fun _ => ⟨stops, outcome⟩⟩
    let fails (reason : String) : Outcome := .failed (.write (.other reason))
    let usage := Usage.start 0
    let x : Sample := ⟨1, 1, 1⟩
    let calm := [react true .published [], react false (fails "gone") [],
      react false (fails "full") []]
    let cut := [react true (fails "gone") [], react false (.aborted .publisher) [],
      react false .published []]
    (publishAll calm usage x).outcome = fails "gone" ∧
      (publishAll cut usage x).outcome = .aborted .publisher ∧
      (publishAll cut usage x).effects = [.stop] ∧
      (publishAll cut usage x).publishers = [react true (fails "gone") [x],
        react false (.aborted .publisher) [x], react false .published []] := by
  intro react fails usage x calm cut
  have hcalm : ∀ p ∈ calm, (p.publish usage x).outcome.isAborted = false := by
    simp [calm, react, fails, Publisher.publish, Outcome.isAborted]
  have hbefore : ∀ q ∈ [react true (fails "gone") []],
      (q.publish usage x).outcome.isAborted = false := by
    simp [react, fails, Publisher.publish, Outcome.isAborted]
  obtain ⟨-, -, -, hfailed⟩ := (broadcast_reports_first_failure calm usage x).1 hcalm
  obtain ⟨hpublishers, heffects, houtcome⟩ := (broadcast_reports_first_failure cut usage x).2
    [react true (fails "gone") []] (react false (.aborted .publisher) [])
    [react false .published []] .publisher rfl hbefore rfl
  refine ⟨?_, houtcome, heffects, hpublishers⟩
  exact (hfailed _).mpr ⟨[react true .published []], react false (fails "gone") [], _, rfl,
    by simp [react, Publisher.publish], rfl⟩

end IoWatch
