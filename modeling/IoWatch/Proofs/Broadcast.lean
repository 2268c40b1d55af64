import IoWatch.Publisher

/-!
# The calls of a broadcast

A broadcast is made of calls: one of each publisher of the list, in order, up to and including the
first call that aborts. Everything that a broadcast leaves behind is what its calls leave behind.

## Main definitions

* `Outcome.isAborted`: whether a call ended where it was
* `callsOf`: the calls of a broadcast, in order
* `getsTo calls p`: whether no call before position `p` aborts
* `Call.logged`, `Event.reportsRates`: the events that a call logs, and how to tell them from others

## Main results

* `publishAll_publishers`, `publishAll_effects`, `publishAll_outcome`: a broadcast is made of its
  calls
* `getElem?_callsOf`: the publisher at a position is called once if the broadcast gets to it, else
  not at all
* `getElem?_publishAll`: and only then its call changes it
-/

namespace IoWatch

/-- Whether a call ended where it was. -/
def Outcome.isAborted : Outcome → Bool
  | aborted _ => true
  | _ => false

/-- The common outcome of three calls does not depend on which two are taken first. -/
theorem Outcome.andThen_assoc (a b c : Outcome) :
    (a.andThen b).andThen c = a.andThen (b.andThen c) := by
  cases a <;> cases b <;> cases c <;> rfl

@[simp] theorem Outcome.andThen_published (a : Outcome) : a.andThen .published = a := by
  cases a <;> rfl

@[simp] theorem Outcome.published_andThen (a : Outcome) : published.andThen a = a := by
  cases a <;> rfl

/-- The calls that hand a sample to the publishers of a list, in order. The first one that aborts
is the last. -/
def callsOf : List Publisher → Usage → Sample → List Call
  | [], _, _ => []
  | p :: ps, usage, sample =>
    let call := p.publish usage sample
    if call.outcome.isAborted then [call] else call :: callsOf ps usage sample

/-- Whether no call before a position aborts. -/
def getsTo (calls : List Call) (p : Nat) : Bool :=
  (calls.take p).all fun call => !call.outcome.isAborted

section Calls

variable {p : Publisher} {ps : List Publisher} {usage : Usage} {sample : Sample}

@[simp] theorem callsOf_nil : callsOf [] usage sample = [] := rfl

theorem callsOf_cons_of_aborted (h : (p.publish usage sample).outcome.isAborted = true) :
    callsOf (p :: ps) usage sample = [p.publish usage sample] := by
  simp [callsOf, h]

theorem callsOf_cons_of_not_aborted (h : (p.publish usage sample).outcome.isAborted = false) :
    callsOf (p :: ps) usage sample = p.publish usage sample :: callsOf ps usage sample := by
  simp [callsOf, h]

@[simp] theorem getsTo_zero (calls : List Call) : getsTo calls 0 = true := by simp [getsTo]

@[simp] theorem getsTo_nil (p : Nat) : getsTo [] p = true := by simp [getsTo]

@[simp] theorem getsTo_cons_succ (call : Call) (calls : List Call) (p : Nat) :
    getsTo (call :: calls) (p + 1) = (!call.outcome.isAborted && getsTo calls p) := by
  simp [getsTo]

theorem getsTo_iff {calls : List Call} {p : Nat} :
    getsTo calls p = true ↔
      ∀ q < p, ∀ call, calls[q]? = some call → call.outcome.isAborted = false := by
  induction calls generalizing p with
  | nil => simp
  | cons call calls ih =>
    cases p with
    | zero => simp
    | succ p =>
      rw [getsTo_cons_succ, Bool.and_eq_true, ih]
      constructor
      · rintro ⟨hhead, htail⟩ (_ | q) hq c hc
        · simp_all
        · exact htail q (by omega) c (by simpa using hc)
      · intro h
        refine ⟨by simpa using h 0 (by omega) call rfl, fun q hq c hc => ?_⟩
        exact h (q + 1) (by omega) c (by simpa using hc)

/-! ## A broadcast is made of its calls -/

theorem publishAll_cons_of_aborted (h : (p.publish usage sample).outcome.isAborted = true) :
    publishAll (p :: ps) usage sample =
      ⟨(p.publish usage sample).next :: ps, (p.publish usage sample).effects,
        (p.publish usage sample).outcome⟩ := by
  cases ho : (p.publish usage sample).outcome <;> simp_all [publishAll, Outcome.isAborted]

theorem publishAll_cons_of_not_aborted (h : (p.publish usage sample).outcome.isAborted = false) :
    publishAll (p :: ps) usage sample =
      ⟨(p.publish usage sample).next :: (publishAll ps usage sample).publishers,
        (p.publish usage sample).effects ++ (publishAll ps usage sample).effects,
        (p.publish usage sample).outcome.andThen (publishAll ps usage sample).outcome⟩ := by
  cases ho : (p.publish usage sample).outcome <;> simp_all [publishAll, Outcome.isAborted]

variable (ps usage sample)

theorem publishAll_publishers :
    (publishAll ps usage sample).publishers =
      (callsOf ps usage sample).map Call.next ++ ps.drop (callsOf ps usage sample).length := by
  induction ps with
  | nil => rfl
  | cons p ps ih =>
    cases h : (p.publish usage sample).outcome.isAborted with
    | true => simp [publishAll_cons_of_aborted h, callsOf_cons_of_aborted h]
    | false => simp [publishAll_cons_of_not_aborted h, callsOf_cons_of_not_aborted h, ih]

theorem publishAll_effects :
    (publishAll ps usage sample).effects = (callsOf ps usage sample).flatMap Call.effects := by
  induction ps with
  | nil => rfl
  | cons p ps ih =>
    cases h : (p.publish usage sample).outcome.isAborted with
    | true => simp [publishAll_cons_of_aborted h, callsOf_cons_of_aborted h]
    | false => simp [publishAll_cons_of_not_aborted h, callsOf_cons_of_not_aborted h, ih]

theorem publishAll_outcome :
    (publishAll ps usage sample).outcome =
      ((callsOf ps usage sample).map Call.outcome).foldr Outcome.andThen .published := by
  induction ps with
  | nil => rfl
  | cons p ps ih =>
    cases h : (p.publish usage sample).outcome.isAborted with
    | true =>
      rw [publishAll_cons_of_aborted h, callsOf_cons_of_aborted h]
      cases ho : (p.publish usage sample).outcome <;> simp_all [Outcome.isAborted, Outcome.andThen]
    | false => simp [publishAll_cons_of_not_aborted h, callsOf_cons_of_not_aborted h, ih]

/-! ## Who is called -/

/-- The publisher at a position is called with the sample if the broadcast gets to it. -/
theorem getElem?_callsOf (i : Nat) :
    (callsOf ps usage sample)[i]? =
      if getsTo (callsOf ps usage sample) i then ps[i]?.map (·.publish usage sample) else none := by
  induction ps generalizing i with
  | nil => simp
  | cons p ps ih =>
    cases h : (p.publish usage sample).outcome.isAborted with
    | true =>
      rw [callsOf_cons_of_aborted h]
      cases i <;> simp [h]
    | false =>
      rw [callsOf_cons_of_not_aborted h]
      cases i with
      | zero => simp
      | succ i => simp [h, ih]

/-- A publisher that the broadcast gets to is left as its call leaves it, any other one as it
was. -/
theorem getElem?_publishAll (i : Nat) :
    (publishAll ps usage sample).publishers[i]? =
      ps[i]?.map fun p =>
        if getsTo (callsOf ps usage sample) i then (p.publish usage sample).next else p := by
  induction ps generalizing i with
  | nil => rfl
  | cons p ps ih =>
    cases h : (p.publish usage sample).outcome.isAborted with
    | true =>
      rw [publishAll_cons_of_aborted h, callsOf_cons_of_aborted h]
      cases i <;> simp [h]
    | false =>
      rw [publishAll_cons_of_not_aborted h, callsOf_cons_of_not_aborted h]
      cases i with
      | zero => simp
      | succ i => simp [h, ih]

@[simp] theorem length_publishAll :
    (publishAll ps usage sample).publishers.length = ps.length := by
  induction ps with
  | nil => rfl
  | cons p ps ih =>
    cases h : (p.publish usage sample).outcome.isAborted with
    | true => simp [publishAll_cons_of_aborted h]
    | false => simp [publishAll_cons_of_not_aborted h, ih]

end Calls

/-! ## What a call logs -/

/-- The event of an effect that logs one. -/
def Effect.event? : Effect → Option Event
  | log event => some event
  | stop => none

@[simp] theorem Effect.event?_log (event : Event) : (log event).event? = some event := rfl

@[simp] theorem Effect.event?_stop : stop.event? = none := rfl

/-- The events that a call logs. -/
def Call.logged (call : Call) : List Event := call.effects.filterMap Effect.event?

/-- Whether an event reports the rates of a sample. Only publishers log such an event, and they
log no other. -/
def Event.reportsRates (e : Event) : Bool := e.message == "Process I/O sampled"

theorem Publisher.reportsRates_of_mem_logged {p : Publisher} {usage : Usage} {sample : Sample}
    {e : Event} (h : e ∈ (p.publish usage sample).logged) : e.reportsRates = true := by
  cases p with
  | rateLog =>
    unfold Call.logged publish at h
    cases hs : usage.snapshot with
    | error reason => simp [hs] at h
    | ok snapshot =>
      obtain rfl : e = ratesEvent sample snapshot := by simpa [hs] using h
      simp [Event.reportsRates, ratesEvent]
  | jsonLines sink =>
    unfold Call.logged publish at h
    cases hs : usage.snapshot <;> simp [hs] at h
  | recorder r =>
    have hnone : ((recorder r).publish usage sample).logged = [] := by
      unfold Call.logged publish
      dsimp only
      split <;> rfl
    simp [hnone] at h

end IoWatch
