import IoWatch.Proofs.Locking
import IoWatch.Proofs.Step

/-!
# One call or tick at a time

Calls and ticks that do not overlap do what a scheduler does when it follows a script. So the steps
between which threads can meet are the steps of the same program. A worker makes its first tick
before it listens to anybody. So a script that ends a worker before its first tick is none of the
threads.

## Main definitions

* `Config.InTick`: a worker is inside a tick, and nothing else is under way
* `Config.Shows`: nothing is under way, and the threads have come to a scheduler whose worker has
  a tick to make, or has none
* `AreSettled`: a script that ends no worker with a tick to make

## Main results

* `serve_alone`, `publish_alone`: the effects of a call, and the calls of a list of publishers
* `tick_alone`, `start_alone`, `stop_alone`: a tick, a start and a stop that nobody disturbs
* `reachable_of_script`: the threads of a new scheduler can do what a script says
-/

namespace IoWatch

namespace Threads

open Function (update)
open Scheduler (applyEffects applyEffect)

/-- Publishers that ask for nothing beyond their effects. -/
abbrev AsksNothing : Publisher → Sample → List Request := fun _ _ => []

section

variable {n : Nat} {asks : Publisher → Sample → List Request} {k : Nat} {c : Config n}

/-- The lifecycle as a worker that is inside a tick leaves it: it is in charge, or it has been told
to end. -/
def Config.InCharge (c : Config n) (k : Nat) : Lifecycle → Prop
  | .created => False
  | .running w => w.aborted = false ∧ c.standing = .running k ∧ c.told k = false
  | .stopped => c.standing = .stopped ∧ c.told k = true

/-- A worker is inside a tick, alone, and has a scheduler of this lifecycle, usage and publishers
under way. -/
structure Config.InTick (c : Config n) (k : Nat) (l : Lifecycle) (usage : Usage)
    (publishers : List Publisher) : Prop where
  free : c.lock = none
  idle : ∀ t, c.point t = none
  inCharge : c.InCharge k l
  usage_eq : c.usage = usage
  publishers_eq : c.publishers = publishers

section Effects

variable {usage : Usage} {publishers : List Publisher} {x : Sample} {p : Nat}
  {soFar outcome : Outcome} {todo : List Deed}

/-- A worker in charge that asks for a stop takes the lock, finds itself, and does not wait. -/
theorem ownStop_alone {w : Worker} (hc : c.InTick k (.running w) usage publishers)
    (hk : c.phase k = .serving x p soFar (.ask .stop :: todo) outcome) :
    ∃ c', Steps AsksNothing c c' ∧ c'.InTick k .stopped usage publishers ∧
      c'.phase k = .serving x p soFar todo outcome ∧
      c'.log = c.log ++ [Scheduler.stoppedEvent] := by
  obtain ⟨hfree, hidle, ⟨-, hstanding, htold⟩, husage, hpublishers⟩ := hc
  refine ⟨?later, ?run, ?inTick, ?phase, ?log⟩
  case run =>
    refine .head (.act (.worker k)
      (.tick (.serveAsk x p soFar outcome .stop todo (hidle _) hk))) ?_
    refine .head (.act (.worker k)
      (.call (.acquire .stop (Function.update_self ..) (by simp) hfree))) ?_
    refine .head (.act (.worker k)
      (.call (.stopWorker k (Function.update_self ..) hstanding))) ?_
    refine .head (.act (.worker k) (.call (.letGo k (Function.update_self ..)))) ?_
    refine .head (.act (.worker k) (.call (.tellSelf .stop k (Function.update_self ..) rfl))) ?_
    refine .head (.act (.worker k) (.call (.stopped (Function.update_self ..)))) ?_
    exact .refl
  case inTick =>
    refine ⟨rfl, fun t => ?_, ⟨rfl, Function.update_self ..⟩, husage, hpublishers⟩
    simp [Function.update_apply, hidle]
  case phase => exact Function.update_self ..
  case log => rfl

/-- A worker that has been stopped and asks for another stop finds nobody in charge. -/
theorem ownStop_again_alone (hc : c.InTick k .stopped usage publishers)
    (hk : c.phase k = .serving x p soFar (.ask .stop :: todo) outcome) :
    ∃ c', Steps AsksNothing c c' ∧ c'.InTick k .stopped usage publishers ∧
      c'.phase k = .serving x p soFar todo outcome ∧ c'.log = c.log := by
  obtain ⟨hfree, hidle, ⟨hstanding, htold⟩, husage, hpublishers⟩ := hc
  refine ⟨?later, ?run, ?inTick, ?phase, ?log⟩
  case run =>
    refine .head (.act (.worker k)
      (.tick (.serveAsk x p soFar outcome .stop todo (hidle _) hk))) ?_
    refine .head (.act (.worker k)
      (.call (.acquire .stop (Function.update_self ..) (by simp) hfree))) ?_
    refine .head (.act (.worker k)
      (.call (.stopNobody (Function.update_self ..) (by simp [hstanding])))) ?_
    refine .head (.act (.worker k) (.call (.leave .stop .done (Function.update_self ..)))) ?_
    exact .refl
  case inTick =>
    refine ⟨rfl, fun t => ?_, ⟨rfl, htold⟩, husage, hpublishers⟩
    simp [Function.update_apply, hidle]
  case phase => exact Function.update_self ..
  case log => rfl

/-- One effect inside a call of a publisher. -/
theorem effect_alone {l : Lifecycle} (e : Effect) (hc : c.InTick k l usage publishers)
    (hk : c.phase k = .serving x p soFar (.ofEffect e :: todo) outcome) :
    ∃ c', Steps AsksNothing c c' ∧ c'.InTick k (applyEffect l e).1 usage publishers ∧
      c'.phase k = .serving x p soFar todo outcome ∧ c'.log = c.log ++ (applyEffect l e).2 := by
  cases e with
  | log event =>
    have ⟨hfree, hidle, hcharge, husage, hpublishers⟩ := hc
    have hstep : TickStep AsksNothing k c _ := .serveLog x p soFar outcome event todo (hidle _) hk
    have heq : applyEffect l (.log event) = (l, [event]) := by cases l <;> rfl
    rw [heq]
    exact ⟨_, .single (.act (.worker k) (.tick hstep)),
      ⟨hfree, hidle, hcharge, husage, hpublishers⟩, Function.update_self .., rfl⟩
  | stop =>
    cases l with
    | created => exact hc.inCharge.elim
    | running w => exact ownStop_alone hc hk
    | stopped => simpa [applyEffect] using ownStop_again_alone hc hk

/-- The effects of a call, in order. Each one finds the lifecycle that the one before has left. -/
theorem serve_alone {l : Lifecycle} (es : List Effect) (hc : c.InTick k l usage publishers)
    (hk : c.phase k = .serving x p soFar (es.map .ofEffect) outcome) :
    ∃ c', Steps AsksNothing c c' ∧ c'.InTick k (applyEffects l es).1 usage publishers ∧
      c'.phase k = .serving x p soFar [] outcome ∧ c'.log = c.log ++ (applyEffects l es).2 := by
  induction es generalizing c l with
  | nil => exact ⟨c, .refl, hc, hk, (List.append_nil _).symm⟩
  | cons e es ih =>
    obtain ⟨c₁, hsteps₁, hc₁, hk₁, hlog₁⟩ := effect_alone e hc hk
    obtain ⟨c₂, hsteps₂, hc₂, hk₂, hlog₂⟩ := ih hc₁ hk₁
    refine ⟨c₂, hsteps₁.trans hsteps₂, hc₂, hk₂, ?_⟩
    rw [hlog₂, hlog₁, List.append_assoc]
    rfl

/-- The call of the next publisher, up to its return. -/
theorem call_alone {l : Lifecycle} (served : List Publisher) (q : Publisher) (qs : List Publisher)
    (hc : c.InTick k l usage (served ++ q :: qs))
    (hk : c.phase k = .publishing x served.length soFar) :
    ∃ c', Steps AsksNothing c c' ∧
      c'.InTick k (applyEffects l (q.publish usage x).effects).1 usage
        (served ++ (q.publish usage x).next :: qs) ∧
      c'.phase k = .serving x served.length soFar [] (q.publish usage x).outcome ∧
      c'.log = c.log ++ (applyEffects l (q.publish usage x).effects).2 := by
  obtain ⟨hfree, hidle, hcharge, rfl, hpublishers⟩ := hc
  obtain ⟨c₁, hstep, hc₁, hk₁, hlog₁⟩ : ∃ c₁, TickStep AsksNothing k c c₁ ∧
      c₁.InTick k l c.usage (served ++ (q.publish c.usage x).next :: qs) ∧
      c₁.phase k = .serving x served.length soFar ((q.publish c.usage x).effects.map .ofEffect)
        (q.publish c.usage x).outcome ∧ c₁.log = c.log := by
    refine ⟨_, .publish x _ soFar q (hidle _) hk (by simp [hpublishers]), ?_, ?_, rfl⟩
    · exact ⟨hfree, hidle, hcharge, rfl, by simp [hpublishers]⟩
    · simp [deeds]
  obtain ⟨c₂, hsteps, hc₂, hk₂, hlog₂⟩ := serve_alone _ hc₁ hk₁
  exact ⟨c₂, .head (.act (.worker k) (.tick hstep)) hsteps, hc₂, hk₂, by rw [hlog₂, hlog₁]⟩

/-- The calls of a list of publishers, of which some have been made with a common outcome, and the
report of the tick. Behind an abort nobody is called. -/
theorem publish_alone {l : Lifecycle} (served ps : List Publisher)
    (hc : c.InTick k l usage (served ++ ps)) (hk : c.phase k = .publishing x served.length soFar) :
    ∃ c', Steps AsksNothing c c' ∧
      c'.InTick k (applyEffects l (publishAll ps usage x).effects).1 usage
        (served ++ (publishAll ps usage x).publishers) ∧
      c'.phase k = .waiting ∧
      c'.log = c.log ++ (applyEffects l (publishAll ps usage x).effects).2 ++
        (Scheduler.report
          (Scheduler.completionOf (soFar.andThen (publishAll ps usage x).outcome))).1 := by
  induction ps generalizing c l soFar served with
  | nil =>
    have hnone : c.publishers[served.length]? = none := by simp [hc.publishers_eq]
    have hstep : TickStep AsksNothing k c _ := .finish x _ soFar (hc.idle _) hk hnone
    refine ⟨_, .single (.act (.worker k) (.tick hstep)), ?_, by simp, ?_⟩
    · exact ⟨hc.free, hc.idle, hc.inCharge, hc.usage_eq, hc.publishers_eq⟩
    · simp [publishAll, applyEffects]
  | cons q qs ih =>
    obtain ⟨c₁, hsteps₁, hc₁, hk₁, hlog₁⟩ := call_alone served q qs hc hk
    cases ho : (q.publish usage x).outcome with
    | aborted reason =>
      rw [ho] at hk₁
      have hstep : TickStep AsksNothing k c₁ _ := .serveAbort x _ soFar reason (hc₁.idle _) hk₁
      rw [publishAll_cons_of_aborted (by simp [ho, Outcome.isAborted])]
      refine ⟨_, hsteps₁.tail (.act (.worker k) (.tick hstep)), ?_, Function.update_self .., ?_⟩
      · exact ⟨hc₁.free, hc₁.idle, hc₁.inCharge, hc₁.usage_eq, hc₁.publishers_eq⟩
      · simp [ho, hlog₁]
    | _ =>
      obtain ⟨c₂, hstep, hc₂, hk₂, hlog₂⟩ : ∃ c₂, TickStep AsksNothing k c₁ c₂ ∧
          c₂.InTick k (applyEffects l (q.publish usage x).effects).1 usage
            ((served ++ [(q.publish usage x).next]) ++ qs) ∧
          c₂.phase k = .publishing x (served ++ [(q.publish usage x).next]).length
            (soFar.andThen (q.publish usage x).outcome) ∧ c₂.log = c₁.log := by
        refine ⟨_, .serveDone x _ soFar _ (hc₁.idle _) hk₁ (by simp [ho]), ?_, ?_, rfl⟩
        · exact ⟨hc₁.free, hc₁.idle, hc₁.inCharge, hc₁.usage_eq, by simpa using hc₁.publishers_eq⟩
        · rw [List.length_append]
          exact Function.update_self ..
      obtain ⟨c₃, hsteps₃, hc₃, hk₃, hlog₃⟩ := ih _ hc₂ hk₂
      rw [publishAll_cons_of_not_aborted (by simp [ho, Outcome.isAborted]),
        Scheduler.applyEffects_append, ← Outcome.andThen_assoc]
      refine ⟨c₃, hsteps₁.trans (.head (.act (.worker k) (.tick hstep)) hsteps₃), ?_, hk₃, ?_⟩
      · simpa using hc₃
      · rw [hlog₃, hlog₂, hlog₁]
        simp

end Effects

/-! ## Ticks -/

/-- The lifecycle as it is between ticks and calls. A worker with a tick to make is about to read;
another one waits. -/
def Config.ShowsLifecycle (c : Config n) (due : Bool) : Lifecycle → Prop
  | .created => c.standing = .created
  | .running w => w.aborted = false ∧ ∃ k, c.standing = .running k ∧ c.told k = false ∧
      c.phase k = if due then .reading else .waiting
  | .stopped => c.standing = .stopped

/-- No call and no tick is under way, and what the threads have come to is a scheduler, whose worker
has a tick to make or has none. -/
structure Config.Shows (c : Config n) (due : Bool) (s : Scheduler) : Prop where
  free : c.lock = none
  idle : ∀ t, c.point t = none
  lifecycle : c.ShowsLifecycle due s.lifecycle
  usage_eq : c.usage = s.usage
  publishers_eq : c.publishers = s.publishers

theorem Config.Shows.create (due : Bool) (intervalMs : UInt64) (usage : Usage)
    (publishers : List Publisher) :
    (Config.create n usage publishers).Shows due (.create intervalMs usage publishers) :=
  ⟨rfl, fun _ => rfl, rfl, rfl, rfl⟩

/-- Without a worker, no tick is to be made. -/
theorem Config.Shows.of_not_running {s : Scheduler} {due : Bool} (hc : c.Shows due s)
    (hl : ∀ w, s.lifecycle ≠ .running w) (due' : Bool) : c.Shows due' s := by
  obtain ⟨hfree, hidle, hlife, husage, hpublishers⟩ := hc
  refine ⟨hfree, hidle, ?_, husage, hpublishers⟩
  cases h : s.lifecycle with
  | running w => exact absurd h (hl w)
  | _ =>
    rw [h] at hlife
    exact hlife

/-- After a tick, a worker that has been told to end does so; another one waits. -/
theorem endTick_alone {s : Scheduler} (hc : c.InTick k s.lifecycle s.usage s.publishers)
    (hk : c.phase k = .waiting) : ∃ c', Steps AsksNothing c c' ∧
      c'.Shows false { s with lifecycle := (Scheduler.endTick s.lifecycle (.returned ())).1 } ∧
      c'.log = c.log ++ (Scheduler.endTick s.lifecycle (.returned ())).2 := by
  obtain ⟨hfree, hidle, hcharge, husage, hpublishers⟩ := hc
  cases hl : s.lifecycle with
  | created =>
    rw [hl] at hcharge
    exact hcharge.elim
  | running w =>
    rw [hl] at hcharge
    obtain ⟨halive, hstanding, htold⟩ := hcharge
    exact ⟨c, .refl, ⟨hfree, hidle, ⟨halive, k, hstanding, htold, hk⟩, husage, hpublishers⟩,
      (List.append_nil _).symm⟩
  | stopped =>
    rw [hl] at hcharge
    have hstep : TickStep AsksNothing k c _ := .exit (hidle _) hk hcharge.2
    exact ⟨_, .single (.act (.worker k) (.tick hstep)),
      ⟨hfree, hidle, hcharge.1, husage, hpublishers⟩, rfl⟩

/-- The cycle of a tick, and its report. The sample is taken into the usage before any publisher is
called, and at the end the worker waits. -/
theorem cycle_alone {s : Scheduler} (source : Source)
    (hc : c.InTick k s.lifecycle s.usage s.publishers) (hk : c.phase k = .reading) :
    ∃ c', Steps AsksNothing c c' ∧ c'.phase k = .waiting ∧
      c'.InTick k (s.cycle source).1.lifecycle (s.cycle source).1.usage
        (s.cycle source).1.publishers ∧
      c'.log = c.log ++ ((s.cycle source).2.1 ++ (Scheduler.report (s.cycle source).2.2).1) := by
  obtain ⟨hfree, hidle, hcharge, husage, hpublishers⟩ := hc
  cases hread : source.read with
  | none =>
    have hstep : TickStep AsksNothing k c _ := .readBroken source (hidle _) hk hread
    have hcycle : s.cycle source = (s, [], .aborted) := by simp [Scheduler.cycle, hread]
    rw [hcycle]
    exact ⟨_, .single (.act (.worker k) (.tick hstep)), Function.update_self ..,
      ⟨hfree, hidle, hcharge, husage, hpublishers⟩, rfl⟩
  | some reading =>
    cases hx : reading.sample.isUnreadable with
    | true =>
      have hstep : TickStep AsksNothing k c _ := .readNothing source reading (hidle _) hk hread hx
      have hcycle : s.cycle source = (s, reading.events, .returned (.ok .skipped)) := by
        simp [Scheduler.cycle, hread, hx]
      rw [hcycle]
      exact ⟨_, .single (.act (.worker k) (.tick hstep)), Function.update_self ..,
        ⟨hfree, hidle, hcharge, husage, hpublishers⟩, rfl⟩
    | false =>
      obtain ⟨c₁, hsteps₁, hc₁, hk₁, hlog₁⟩ : ∃ c₁, Steps AsksNothing c c₁ ∧
          c₁.InTick k s.lifecycle (s.usage.update reading.sample) ([] ++ s.publishers) ∧
          c₁.phase k = .publishing reading.sample ([] : List Publisher).length .published ∧
          c₁.log = c.log ++ reading.events := by
        refine ⟨?later, ?run, ?inTick, ?phase, ?log⟩
        case run =>
          refine .head (.act (.worker k)
            (.tick (.readSample source reading (hidle _) hk hread hx))) ?_
          refine .head (.act (.worker k)
            (.tick (.takeIn reading.sample (hidle _) (Function.update_self ..)))) ?_
          exact .refl
        case inTick => exact ⟨hfree, hidle, hcharge, by rw [← husage], hpublishers⟩
        case phase => exact Function.update_self ..
        case log => rfl
      obtain ⟨c₂, hsteps₂, hc₂, hk₂, hlog₂⟩ := publish_alone [] s.publishers hc₁ hk₁
      refine ⟨c₂, hsteps₁.trans hsteps₂, hk₂, ?_, ?_⟩
      · simpa [Scheduler.cycle, hread, hx] using hc₂
      · rw [hlog₂, hlog₁]
        simp [Scheduler.cycle, hread, hx]

/-- The time of the next tick comes, if it has not come yet. -/
theorem wait_alone {s : Scheduler} {w : Worker} {due : Bool} (hc : c.Shows due s)
    (hw : s.lifecycle = .running w) : ∃ c', Steps asks c c' ∧ c'.Shows true s ∧ c'.log = c.log := by
  cases due with
  | true => exact ⟨c, .refl, hc, rfl⟩
  | false =>
    obtain ⟨hfree, hidle, hlife, husage, hpublishers⟩ := hc
    rw [hw] at hlife
    obtain ⟨halive, k, hstanding, htold, hk⟩ := hlife
    refine ⟨_, .single (.begin (.tick k (hidle _) hk htold)), ?_, rfl⟩
    refine ⟨hfree, hidle, ?_, husage, hpublishers⟩
    rw [hw]
    exact ⟨halive, k, hstanding, htold, Function.update_self ..⟩

/-- **A tick that nobody disturbs is the tick of a scheduler**: it leaves the same lifecycle, usage
and publishers, and logs the same events, in the same order. Once its tick is due, the worker reads,
and then waits or ends. -/
theorem tick_alone {s : Scheduler} {w : Worker} {due : Bool} (source : Source)
    (hc : c.Shows due s) (hw : s.lifecycle = .running w) :
    ∃ c', Steps AsksNothing c c' ∧ c'.Shows false (s.tick source).1 ∧
      c'.log = c.log ++ (s.tick source).2 := by
  obtain ⟨c₀, hsteps₀, hc₀, hlog₀⟩ := wait_alone hc hw
  obtain ⟨hfree, hidle, hlife, husage, hpublishers⟩ := hc₀
  rw [hw] at hlife
  obtain ⟨halive, k, hstanding, htold, hk⟩ := hlife
  have hin : c₀.InTick k s.lifecycle s.usage s.publishers :=
    ⟨hfree, hidle, by rw [hw]; exact ⟨halive, hstanding, htold⟩, husage, hpublishers⟩
  obtain ⟨c₁, hsteps₁, hk₁, hc₁, hlog₁⟩ := cycle_alone source hin hk
  obtain ⟨c₂, hsteps₂, hc₂, hlog₂⟩ := endTick_alone hc₁ hk₁
  refine ⟨c₂, hsteps₀.trans (hsteps₁.trans hsteps₂), ?_, ?_⟩
  · simpa only [Scheduler.tick, Scheduler.report_snd] using hc₂
  · rw [hlog₂, hlog₁, hlog₀, List.append_assoc]
    simp only [Scheduler.tick, Scheduler.report_snd]

/-! ## Calls -/

section Calls

variable {s : Scheduler} {due : Bool} {t : Thread n} {intervalMs : UInt64}

/-- What a start returns. -/
def Reply.ofStart : Except SchedulerError Unit → Reply
  | .ok () => done
  | .error e => refused e

/-- Whether the worker has a tick to make after a start: it does if it is new. -/
def dueAfterStart (due : Bool) : Except SchedulerError Unit → Bool
  | .ok () => true
  | .error _ => due

/-- The rest of a start that has no worker to wait for, or none any more. -/
theorem employ_alone (spawned : Except Fault Unit) (hs : c.Sound)
    (ht : c.point t = some (.hiring intervalMs)) (hidle : ∀ u ≠ t, c.point u = none)
    (hstanding : c.standing = .created) (husage : c.usage = s.usage)
    (hpublishers : c.publishers = s.publishers) :
    ∃ c', Steps asks c c' ∧
      c'.Shows (dueAfterStart due (s.employ intervalMs spawned).2.2)
        (s.employ intervalMs spawned).1 ∧
      c'.log = c.log ++ (s.employ intervalMs spawned).2.1 ∧
      c'.returned = c.returned ++
        [(t, .start intervalMs, .ofStart (s.employ intervalMs spawned).2.2)] := by
  cases spawned with
  | ok =>
    refine ⟨?later, ?run, ?shows, ?log, ?returned⟩
    case run =>
      refine .head (.act t (.call (.spawn intervalMs ht))) ?_
      refine .head (.act t (.call (.install intervalMs _ (Function.update_self ..)))) ?_
      refine .head (.act t (.call (.leave _ .done (Function.update_self ..)))) ?_
      exact .refl
    case shows =>
      refine ⟨rfl, fun u => ?_, ⟨rfl, c.spawned, rfl, hs.untold _ (Nat.le_refl _), ?_⟩, husage,
        hpublishers⟩
      · by_cases hu : u = t
        · simp [hu]
        · simp [hu, hidle]
      · exact Function.update_self ..
    case log => rfl
    case returned => rfl
  | error fault =>
    refine ⟨?later', ?run', ?shows', ?log', ?returned'⟩
    case run' =>
      refine .head (.act t (.call (.spawnFails intervalMs fault ht))) ?_
      refine .head (.act t (.call (.leave _ _ (Function.update_self ..)))) ?_
      exact .refl
    case shows' =>
      refine ⟨rfl, fun u => ?_, hstanding, husage, hpublishers⟩
      by_cases hu : u = t
      · simp [hu]
      · simp [hu, hidle]
    case log' => exact (List.append_nil _).symm
    case returned' => rfl

/-- A call from outside gets the lock. -/
theorem acquire_alone (i : Fin n) (r : Request) (hc : c.Shows due s) (hr : r ≠ .start 0) :
    Steps asks c { c with
      lock := some (.caller i)
      point := update c.point (.caller i) (some (.locked r)) } := by
  refine .head (.begin (.call i r (hc.idle _))) ?_
  refine .head (.act (.caller i) (.call (.acquire r (Function.update_self ..) hr hc.free))) ?_
  simp only [Function.update_idem]
  exact .refl

section Start

variable (i : Fin n) (spawned : Except Fault Unit)

theorem startAnew_alone (hs : c.Sound) (hc : c.Shows due s) (hl : s.lifecycle = .created)
    (hinterval : intervalMs ≠ 0) :
    ∃ c', Steps asks c c' ∧
      c'.Shows (dueAfterStart due (s.employ intervalMs spawned).2.2)
        (s.employ intervalMs spawned).1 ∧
      c'.log = c.log ++ (s.employ intervalMs spawned).2.1 ∧
      c'.returned = c.returned ++
        [(.caller i, .start intervalMs, .ofStart (s.employ intervalMs spawned).2.2)] := by
  have ⟨hfree, hidle, hlife, husage, hpublishers⟩ := hc
  rw [hl] at hlife
  have hlock : Steps asks c _ := acquire_alone i (.start intervalMs) hc (by simpa using hinterval)
  have hanew := hlock.tail (.act (.caller i)
    (.call (.startAnew intervalMs (Function.update_self ..) hlife)))
  simp only [Function.update_idem] at hanew
  obtain ⟨c', hsteps, hc', hlog, hreturned⟩ := employ_alone (s := s) spawned (hs.steps hanew)
    (Function.update_self ..) (fun u hu => by simp [hu, hidle]) hlife husage hpublishers
  exact ⟨c', hanew.trans hsteps, hc', hlog, hreturned⟩

/-- The worker is told, exits from its wait, and only then is a new one spawned. The start keeps the
lock all the time. -/
theorem startInstead_alone {w : Worker} (hs : c.Sound) (hc : c.Shows false s)
    (hl : s.lifecycle = .running w) (hinterval : intervalMs ≠ 0) :
    ∃ c', Steps asks c c' ∧
      c'.Shows (dueAfterStart false (s.employ intervalMs spawned).2.2)
        (s.employ intervalMs spawned).1 ∧
      c'.log = c.log ++ (Scheduler.restartingEvent :: Scheduler.shutdown w ++
        (s.employ intervalMs spawned).2.1) ∧
      c'.returned = c.returned ++
        [(.caller i, .start intervalMs, .ofStart (s.employ intervalMs spawned).2.2)] := by
  have ⟨hfree, hidle, hlife, husage, hpublishers⟩ := hc
  rw [hl] at hlife
  obtain ⟨halive, k, hstanding, -, hk⟩ := hlife
  have hlock : Steps asks c _ := acquire_alone i (.start intervalMs) hc (by simpa using hinterval)
  have hinstead := hlock.tail (.act (.caller i)
    (.call (.startInstead intervalMs k (Function.update_self ..) hstanding)))
  have htell := hinstead.tail (.act (.caller i)
    (.call (.tellOther _ k (Function.update_self ..) (by simp))))
  have hexit := htell.tail (.act (.worker k)
    (.tick (.exit (by simp [hidle]) hk (Function.update_self ..))))
  have hjoin := hexit.tail (.act (.caller i)
    (.call (.join _ k (Function.update_self ..) (Function.update_self ..))))
  simp only [Function.update_idem] at hjoin
  obtain ⟨c', hsteps, hc', hlog, hreturned⟩ := employ_alone (s := s) spawned (hs.steps hjoin)
    (Function.update_self ..) (fun u hu => by simp [hu, hidle]) rfl husage hpublishers
  refine ⟨c', hjoin.trans hsteps, hc', ?_, hreturned⟩
  simpa [Scheduler.shutdown_of_live halive, Scheduler.joined] using hlog

theorem startTooLate_alone (hc : c.Shows due s) (hl : s.lifecycle = .stopped)
    (hinterval : intervalMs ≠ 0) :
    ∃ c', Steps asks c c' ∧ c'.Shows due s ∧ c'.log = c.log ∧
      c'.returned = c.returned ++
        [(.caller i, .start intervalMs, .refused .alreadyStopped)] := by
  have ⟨hfree, hidle, hlife, husage, hpublishers⟩ := hc
  rw [hl] at hlife
  refine ⟨?later, ?run, ?shows, ?log, ?returned⟩
  case run =>
    refine (acquire_alone i (.start intervalMs) hc (by simpa using hinterval)).trans ?_
    refine .head (.act (.caller i)
      (.call (.startTooLate intervalMs (Function.update_self ..) hlife))) ?_
    refine .head (.act (.caller i) (.call (.putBack intervalMs (Function.update_self ..)))) ?_
    refine .head (.act (.caller i) (.call (.leave _ _ (Function.update_self ..)))) ?_
    exact .refl
  case shows =>
    refine ⟨rfl, fun u => by simp [Function.update_apply, hidle], ?_, husage, hpublishers⟩
    rw [hl]
    rfl
  case log => rfl
  case returned => rfl

theorem startZero_alone (hc : c.Shows due s) :
    ∃ c', Steps asks c c' ∧ c'.Shows due s ∧ c'.log = c.log ∧
      c'.returned = c.returned ++ [(.caller i, .start 0, .refused .zeroInterval)] := by
  have ⟨hfree, hidle, hlife, husage, hpublishers⟩ := hc
  refine ⟨?later, ?run, ?shows, ?log, ?returned⟩
  case run =>
    refine .head (.begin (.call i (.start 0) (hidle _))) ?_
    refine .head (.act (.caller i) (.call (.refuse (Function.update_self ..)))) ?_
    exact .refl
  case shows =>
    exact ⟨hfree, fun u => by simp [Function.update_apply, hidle], hlife, husage, hpublishers⟩
  case log => rfl
  case returned => rfl

/-- **A start that nobody disturbs is the start of a scheduler**, if the worker it replaces has no
tick to make: it leaves the same state, logs the same events and has the same result. -/
theorem start_alone (hs : c.Sound) (hc : c.Shows due s)
    (hsettled : ∀ w, s.lifecycle = .running w → due = false) :
    ∃ c', Steps asks c c' ∧
      c'.Shows (dueAfterStart due (s.startWith intervalMs spawned).2.2)
        (s.startWith intervalMs spawned).1 ∧
      c'.log = c.log ++ (s.startWith intervalMs spawned).2.1 ∧
      c'.returned = c.returned ++
        [(.caller i, .start intervalMs, .ofStart (s.startWith intervalMs spawned).2.2)] := by
  by_cases hzero : intervalMs = 0
  · subst hzero
    simpa [Scheduler.startWith, Reply.ofStart, dueAfterStart] using startZero_alone i hc
  · rw [Scheduler.startWith, if_neg hzero]
    cases hl : s.lifecycle with
    | created => exact startAnew_alone i spawned hs hc hl hzero
    | running w =>
      obtain rfl := hsettled w hl
      exact startInstead_alone i spawned hs hc hl hzero
    | stopped => simpa [Reply.ofStart, dueAfterStart] using startTooLate_alone i hc hl hzero

end Start

/-- **A stop that nobody disturbs is the stop of a scheduler**, if the worker in charge has no tick
to make. It has let the lock go when the worker exits. -/
theorem stop_alone (i : Fin n) (hc : c.Shows due s)
    (hsettled : ∀ w, s.lifecycle = .running w → due = false) :
    ∃ c', Steps asks c c' ∧ c'.Shows due s.stop.1 ∧ c'.log = c.log ++ s.stop.2 ∧
      c'.returned = c.returned ++ [(.caller i, .stop, .done)] := by
  have ⟨hfree, hidle, hlife, husage, hpublishers⟩ := hc
  cases hl : s.lifecycle with
  | running w =>
    obtain rfl := hsettled w hl
    rw [hl] at hlife
    obtain ⟨halive, k, hstanding, -, hk⟩ := hlife
    refine ⟨?later, ?run, ?shows, ?log, ?returned⟩
    case run =>
      refine (acquire_alone i .stop hc (by simp)).trans ?_
      refine .head (.act (.caller i)
        (.call (.stopWorker k (Function.update_self ..) hstanding))) ?_
      refine .head (.act (.caller i) (.call (.letGo k (Function.update_self ..)))) ?_
      refine .head (.act (.caller i)
        (.call (.tellOther _ k (Function.update_self ..) (by simp)))) ?_
      refine .head (.act (.worker k)
        (.tick (.exit (by simp [hidle]) hk (Function.update_self ..)))) ?_
      refine .head (.act (.caller i)
        (.call (.join _ k (Function.update_self ..) (Function.update_self ..)))) ?_
      refine .head (.act (.caller i) (.call (.stopped (Function.update_self ..)))) ?_
      exact .refl
    case shows =>
      exact ⟨rfl, fun u => by simp [Function.update_apply, hidle], rfl, husage, hpublishers⟩
    case log =>
      simp [Scheduler.stop, hl, Scheduler.shutdown_of_live halive, Scheduler.joined]
    case returned => rfl
  | _ =>
    rw [hl] at hlife
    have hnobody : ∀ k, c.standing ≠ .running k := by
      intro k hk
      cases hlife.symm.trans hk
    have hlock : Steps asks c _ := acquire_alone i .stop hc (by simp)
    have hstop := hlock.tail (.act (.caller i)
      (.call (.stopNobody (Function.update_self ..) hnobody)))
    have hleave := hstop.tail (.act (.caller i) (.call (.leave _ _ (Function.update_self ..))))
    refine ⟨_, hleave, ?_, ?_, rfl⟩
    · exact ⟨rfl, fun u => by simp [Function.update_apply, hidle], rfl, husage, hpublishers⟩
    · simp [Scheduler.stop, hl]

theorem look_alone (i : Fin n) (hc : c.Shows due s) :
    ∃ c', Steps asks c c' ∧ c'.Shows due s ∧ c'.log = c.log ∧
      c'.returned = c.returned ++ [(.caller i, .look, .saw c.standing.state)] := by
  have ⟨hfree, hidle, hlife, husage, hpublishers⟩ := hc
  have hlock : Steps asks c _ := acquire_alone i .look hc (by simp)
  have hsee := hlock.tail (.act (.caller i) (.call (.see (Function.update_self ..))))
  have hleave := hsee.tail (.act (.caller i) (.call (.leave _ _ (Function.update_self ..))))
  refine ⟨_, hleave, ?_, rfl, rfl⟩
  exact ⟨rfl, fun u => by simp [Function.update_apply, hidle], hlife, husage, hpublishers⟩

end Calls

/-! ## Scripts -/

/-- A step that does not end a worker with a tick to make, and is not the end of the scheduler. -/
def IsSettled (due : Bool) (s : Scheduler) : IoWatch.Step → Prop
  | .drop => False
  | .start .. | .stop => ∀ w, s.lifecycle = .running w → due = false
  | _ => True

/-- Whether the worker has a tick to make after a step. -/
def dueAfter (due : Bool) (s : Scheduler) : IoWatch.Step → Bool
  | .start intervalMs spawned => dueAfterStart due (s.start intervalMs spawned).2.2
  | .tick _ => false
  | _ => due

/-- A script of such steps. -/
def AreSettled (due : Bool) (s : Scheduler) : List IoWatch.Step → Prop
  | [] => True
  | step :: steps =>
    IsSettled due s step ∧ AreSettled (dueAfter due s step) (s.step step).1 steps

/-- The threads do what a step of a script says. -/
theorem step_alone (i : Fin n) {s : Scheduler} {due : Bool} {step : IoWatch.Step} (hs : c.Sound)
    (hc : c.Shows due s) (hstep : IsSettled due s step) :
    ∃ c', Steps AsksNothing c c' ∧ c'.Shows (dueAfter due s step) (s.step step).1 ∧
      c'.log = c.log ++ (s.step step).2.1 := by
  cases step with
  | start intervalMs spawned =>
    obtain ⟨c', hsteps, hc', hlog, -⟩ := start_alone i spawned hs hc hstep
    exact ⟨c', hsteps, hc', hlog⟩
  | stop =>
    obtain ⟨c', hsteps, hc', hlog, -⟩ := stop_alone i hc hstep
    exact ⟨c', hsteps, hc', hlog⟩
  | look =>
    obtain ⟨c', hsteps, hc', hlog, -⟩ := look_alone i hc
    exact ⟨c', hsteps, hc', by rw [hlog]; exact (List.append_nil _).symm⟩
  | drop => exact hstep.elim
  | tick source =>
    cases hl : s.lifecycle with
    | running w =>
      have hlife := hc.lifecycle
      rw [hl] at hlife
      simpa [Scheduler.step, hl, hlife.1, dueAfter] using tick_alone source hc hl
    | _ =>
      have hnothing : ∃ c', Steps AsksNothing c c' ∧ c'.Shows false s ∧ c'.log = c.log :=
        ⟨c, .refl, hc.of_not_running (by simp [hl]) false, rfl⟩
      simpa [Scheduler.step, hl, dueAfter] using hnothing

/-- The threads do what a script says. -/
theorem run_alone (i : Fin n) {s : Scheduler} {due : Bool} {steps : List IoWatch.Step}
    (hs : c.Sound) (hc : c.Shows due s) (hsettled : AreSettled due s steps) :
    ∃ c' due', Steps AsksNothing c c' ∧ c'.Shows due' (s.run steps).1 ∧
      c'.log = c.log ++ (s.run steps).2 := by
  induction steps generalizing c s due with
  | nil => exact ⟨c, due, .refl, hc, (List.append_nil _).symm⟩
  | cons step steps ih =>
    obtain ⟨c₁, hsteps₁, hc₁, hlog₁⟩ := step_alone i hs hc hsettled.1
    obtain ⟨c₂, due', hsteps₂, hc₂, hlog₂⟩ := ih (hs.steps hsteps₁) hc₁ hsettled.2
    refine ⟨c₂, due', hsteps₁.trans hsteps₂, hc₂, ?_⟩
    rw [hlog₂, hlog₁, List.append_assoc]
    rfl

/-- **A script is a run of the threads.** Whatever a new scheduler comes to by following a script
that ends no worker before its first tick, one call or tick at a time, its threads can come to, with
the same log. -/
theorem reachable_of_script (i : Fin n) (intervalMs : UInt64) (usage : Usage)
    (publishers : List Publisher) {steps : List IoWatch.Step}
    (hsettled : AreSettled false (.create intervalMs usage publishers) steps) :
    ∃ (c : Config n) (due : Bool), Reachable AsksNothing c ∧
      c.Shows due ((Scheduler.create intervalMs usage publishers).run steps).1 ∧
      c.log = ((Scheduler.create intervalMs usage publishers).run steps).2 := by
  obtain ⟨c, due, hsteps, hc, hlog⟩ :=
    run_alone i (Config.Sound.create usage publishers) (Config.Shows.create ..) hsettled
  exact ⟨c, due, ⟨usage, publishers, hsteps⟩, hc, hlog⟩

end

end Threads

end IoWatch
