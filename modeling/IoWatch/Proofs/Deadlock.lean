import IoWatch.Proofs.OneWorker
import Mathlib.Algebra.BigOperators.Fin
import Mathlib.Algebra.Order.BigOperators.Group.Finset

/-!
# A restart that meets a stop from inside a tick

A thread with the lock can always go on, but for one case: a start that waits for the worker it
replaces while a publisher of this worker asks for a stop. The start has the lock that the stop
needs, and the worker cannot end before the stop returns. Where publishers ask for nothing but
stops, this is the only way in which the threads of a scheduler can get stuck, and there is no way
out of it.

## Main definitions

* `Config.Stuck`: something is unfinished, and no thread can go on
* `Config.Blocks`: the points at which a call waits
* `Config.Deadlock`: a start and a worker that wait for each other

## Main results

* `exists_callStep`, `exists_tickStep`: calls and ticks go on unless they wait
* `exists_deadlock`: without a deadlock something can go on
* `Config.Deadlock.steps`: a deadlock stays for ever
* `stuck_iff_deadlock`: when the threads are stuck, and when they will be
-/

namespace IoWatch

namespace Threads

/-- A worker is inside a tick. -/
def Phase.inTick : Phase → Bool
  | reading | updating _ | publishing .. | serving .. => true
  | _ => false

section

variable {n : Nat} {asks : Publisher → Sample → List Request} {t u : Thread n} {j k : Nat}
  {intervalMs : UInt64} {x : Point} {c c' : Config n}

namespace Config

/-- Some call or some tick has begun and is not over. -/
def Unfinished (c : Config n) : Prop :=
  (∃ t, c.point t ≠ none) ∨ ∃ k, (c.phase k).inTick = true

/-- Something is unfinished, and no thread can go on with what it has begun. -/
def Stuck (asks : Publisher → Sample → List Request) (c : Config n) : Prop :=
  c.Unfinished ∧ ∀ t c', ¬ Act asks t c c'

/-- A call waits at a point: for the lock, or for the end of a worker. -/
def Blocks (c : Config n) : Point → Prop
  | .called r => r ≠ .start 0 ∧ c.lock ≠ none
  | .joining _ k => ¬ (c.phase k).HasEnded
  | _ => False

/-- A start waits with the lock for a worker that it replaces, and a publisher of this worker waits
for the lock to stop the scheduler. -/
structure Deadlock (c : Config n) (t : Thread n) (intervalMs : UInt64) (k : Nat) : Prop where
  /-- The start waits for the worker. -/
  restart : c.point t = some (.joining (.replace intervalMs) k)
  /-- The worker's stop waits for the lock. -/
  stop : c.point (.worker k) = some (.called .stop)

end Config

/-! ## Who can go on -/

/-- A call goes on unless it waits. -/
theorem exists_callStep (h : c.point t = some x) (hx : ¬ c.Blocks x) : ∃ c', CallStep t c c' := by
  cases x with
  | called r =>
    by_cases hr : r = .start 0
    · subst hr
      exact ⟨_, .refuse h⟩
    · exact ⟨_, .acquire r h hr (by simpa [Config.Blocks, hr] using hx)⟩
  | locked r =>
    cases r with
    | start intervalMs =>
      cases hs : c.standing with
      | created => exact ⟨_, .startAnew intervalMs h hs⟩
      | running k => exact ⟨_, .startInstead intervalMs k h hs⟩
      | stopped => exact ⟨_, .startTooLate intervalMs h hs⟩
    | stop =>
      cases hs : c.standing with
      | running k => exact ⟨_, .stopWorker k h hs⟩
      | _ => exact ⟨_, .stopNobody h (by simp [hs])⟩
    | look => exact ⟨_, .see h⟩
  | foundStopped intervalMs => exact ⟨_, .putBack intervalMs h⟩
  | taken k => exact ⟨_, .letGo k h⟩
  | telling purpose k =>
    by_cases ht : t = .worker k
    · exact ⟨_, .tellSelf purpose k h ht⟩
    · exact ⟨_, .tellOther purpose k h ht⟩
  | joining purpose k =>
    obtain ⟨threadEnd, hended⟩ := not_not.mp hx
    exact ⟨_, .join purpose k h hended⟩
  | hiring intervalMs => exact ⟨_, .spawn intervalMs h⟩
  | hired intervalMs k => exact ⟨_, .install intervalMs k h⟩
  | leaving r reply => exact ⟨_, .leave r reply h⟩
  | stopping => exact ⟨_, .stopped h⟩

/-- A step from a point of waiting needs a free lock or the end of a worker. -/
theorem not_callStep_of_blocks (h : c.point t = some x) (hx : c.Blocks x) : ¬ CallStep t c c' := by
  intro hstep
  cases hstep <;> grind [Config.Blocks, Phase.HasEnded]

variable (asks) in
/-- A tick goes on unless it is inside a call. -/
theorem exists_tickStep (hc : c.point (.worker k) = none) (h : (c.phase k).inTick = true) :
    ∃ c', TickStep asks k c c' := by
  cases hk : c.phase k with
  | reading => exact ⟨_, .readBroken .broken hc hk rfl⟩
  | updating x => exact ⟨_, .takeIn x hc hk⟩
  | publishing x p soFar =>
    cases hp : c.publishers[p]? with
    | none => exact ⟨_, .finish x p soFar hc hk hp⟩
    | some publisher => exact ⟨_, .publish x p soFar publisher hc hk hp⟩
  | serving x p soFar todo outcome =>
    cases todo with
    | nil =>
      cases outcome with
      | aborted reason => exact ⟨_, .serveAbort x p soFar reason hc hk⟩
      | _ => exact ⟨_, .serveDone x p soFar _ hc hk (by simp)⟩
    | cons deed todo =>
      cases deed with
      | log event => exact ⟨_, .serveLog x p soFar outcome event todo hc hk⟩
      | ask r => exact ⟨_, .serveAsk x p soFar outcome r todo hc hk⟩
  | _ => simp [hk, Phase.inTick] at h

namespace Config.Stuck

variable (hs : c.Sound) (hc : c.Orderly) (h : c.Stuck asks)
include h

/-- Every call waits, or it could go on. -/
theorem blocks (hx : c.point t = some x) : c.Blocks x := by
  by_contra hgoes
  obtain ⟨c', hstep⟩ := exists_callStep hx hgoes
  exact h.2 t c' (.call hstep)

/-- Some call is under way: a tick without one could go on. -/
theorem exists_point : ∃ t x, c.point t = some x := by
  obtain ⟨⟨t, ht⟩ | ⟨k, hk⟩, hstuck⟩ := h
  · exact ⟨t, Option.ne_none_iff_exists'.mp ht⟩
  · refine ⟨.worker k, Option.ne_none_iff_exists'.mp fun hnone => ?_⟩
    obtain ⟨c', hstep⟩ := exists_tickStep asks hnone hk
    exact hstuck _ c' (.tick hstep)

include hs

/-- Whoever is waited for is inside a call. It has been spawned and told to end, so outside of a
call it could go on. -/
theorem exists_point_of_joining {purpose : Purpose}
    (hx : c.point t = some (.joining purpose k)) : ∃ y, c.point (.worker k) = some y := by
  refine Option.ne_none_iff_exists'.mp fun hnone => ?_
  have htold := hs.told t purpose k hx
  have hborn : c.phase k ≠ .unborn := fun hunborn =>
    absurd ((hs.unborn k).mp hunborn) (Nat.not_le_of_lt (hs.known t _ k hx rfl))
  cases hphase : c.phase k with
  | unborn => exact hborn hphase
  | ended threadEnd => exact h.blocks hx ⟨threadEnd, hphase⟩
  | waiting => exact h.2 _ _ (.tick (.exit hnone hphase htold))
  | _ =>
    obtain ⟨c', hstep⟩ := exists_tickStep asks hnone (by rw [hphase]; rfl)
    exact h.2 _ c' (.tick hstep)

include hc

/-- A worker that is waited for waits for the lock itself, to make a stop. -/
theorem point_of_joining {purpose : Purpose} (hx : c.point t = some (.joining purpose k)) :
    c.point (.worker k) = some (.called .stop) := by
  obtain ⟨y, hy⟩ := h.exists_point_of_joining hs hx
  have hrequest := hc.stops k y hy
  have hown := hc.own k y hy
  have hblocked := h.blocks hy
  cases y with
  | called r => rw [hy, show r = .stop from hrequest]
  | joining => exact hown.elim
  | _ => exact hblocked.elim

/-- Somebody has the lock: it is what a call waits for, or the worker that the call joins. -/
theorem lock_ne_none : c.lock ≠ none := by
  obtain ⟨t, x, hx⟩ := h.exists_point
  have hblocked := h.blocks hx
  cases x with
  | called r => exact hblocked.2
  | joining purpose k => exact (h.blocks (h.point_of_joining hs hc hx)).2
  | _ => exact hblocked.elim

end Config.Stuck

/-- Without a deadlock something can go on. Otherwise the thread with the lock would wait, too, and
only a start waits with the lock. -/
theorem exists_deadlock (hs : c.Sound) (hc : c.Orderly) (h : c.Stuck asks) :
    ∃ t intervalMs k, c.Deadlock t intervalMs k := by
  obtain ⟨t, ht⟩ := Option.ne_none_iff_exists'.mp (h.lock_ne_none hs hc)
  obtain ⟨x, hx, hholds⟩ := (Option.any_eq_true ..).mp ((hs.holder t).mp ht)
  have hblocked := h.blocks hx
  cases x with
  | called => cases hholds
  | joining purpose k =>
    cases purpose with
    | replace intervalMs => exact ⟨t, intervalMs, k, hx, h.point_of_joining hs hc hx⟩
    | stop => cases hholds
  | _ => exact hblocked.elim

/-! ## No way out -/

namespace Config.Deadlock

theorem lock_eq (hs : c.Sound) (hd : c.Deadlock t intervalMs k) : c.lock = some t :=
  hs.lock_of_point hd.restart rfl

/-- The worker has not ended: it is inside a publisher. -/
theorem isAlive (hs : c.Sound) (hd : c.Deadlock t intervalMs k) : (c.phase k).isAlive = true :=
  Phase.isAlive_of_isServing (hs.serving k _ hd.stop)

theorem blocks_restart (hs : c.Sound) (hd : c.Deadlock t intervalMs k) :
    c.Blocks (.joining (.replace intervalMs) k) :=
  Phase.not_hasEnded_of_isAlive (hd.isAlive hs)

theorem blocks_stop (hs : c.Sound) (hd : c.Deadlock t intervalMs k) :
    c.Blocks (.called .stop) := ⟨by simp, by simp [hd.lock_eq hs]⟩

/-- Neither the start nor the worker can go on. -/
theorem ne_of_callStep (hs : c.Sound) (hd : c.Deadlock t intervalMs k) (h : CallStep u c c') :
    u ≠ t ∧ u ≠ .worker k := by
  refine ⟨?_, ?_⟩
  · rintro rfl
    exact not_callStep_of_blocks hd.restart (hd.blocks_restart hs) h
  · rintro rfl
    exact not_callStep_of_blocks hd.stop (hd.blocks_stop hs) h

theorem step (hs : c.Sound) (hd : c.Deadlock t intervalMs k) (h : Step asks c c') :
    c'.Deadlock t intervalMs k := by
  have ⟨hrestart, hstop⟩ := hd
  cases h with
  | act u h =>
    cases h with
    | call h =>
      obtain ⟨ht, hk⟩ := hd.ne_of_callStep hs h
      exact ⟨by rw [h.point_of_ne ht.symm, hrestart], by rw [h.point_of_ne hk.symm, hstop]⟩
    | tick h => exact ⟨h.beside.point_eq _ _ hrestart, h.beside.point_eq _ _ hstop⟩
  | begin h => exact ⟨h.beside.point_eq _ _ hrestart, h.beside.point_eq _ _ hstop⟩

/-- **A deadlock stays for ever**, whatever the other threads do. -/
theorem steps (hs : c.Sound) (hd : c.Deadlock t intervalMs k) (h : Steps asks c c') :
    c'.Deadlock t intervalMs k := by
  induction h with
  | refl => exact hd
  | tail hsteps hstep ih => exact ih.step (hs.steps hsteps) hstep

end Config.Deadlock

/-! ## What else can still go on -/

/-- How many steps a call without the lock can take at most while another thread has it. -/
def Point.rank : Point → Nat
  | telling .. => 3
  | joining .. => 2
  | called _ | stopping => 1
  | _ => 0

/-- How many steps the calls from outside can take at most while another thread has the lock. -/
def Config.remaining (c : Config n) : Nat := ∑ i, ((c.point (.caller i)).map Point.rank).getD 0

theorem CallStep.rank_lt (h : CallStep t c c') (ht : c.holds t = false) (hl : c.lock ≠ none)
    (hne : ∀ k, t ≠ .worker k) :
    ((c'.point t).map Point.rank).getD 0 < ((c.point t).map Point.rank).getD 0 := by
  cases h with
  | acquire r h hr hlock => exact (hl hlock).elim
  | tellSelf purpose k h hk => exact (hne k hk).elim
  | tellOther purpose k h | join purpose k h =>
    cases purpose with
    | replace => simp [Config.holds, h, Point.holdsLock] at ht
    | stop => simp [h, Point.rank, Purpose.relieved]
  | refuse h | stopped h => simp [h, Point.rank]
  | _ => simp_all [Config.holds, Point.holdsLock]

/-- A step of a call from outside lowers the rank of its thread and leaves the others theirs. -/
theorem CallStep.remaining_lt {i : Fin n} (h : CallStep (.caller i) c c')
    (ht : c.holds (.caller i) = false) (hl : c.lock ≠ none) : c'.remaining < c.remaining := by
  refine Finset.sum_lt_sum (fun j _ => ?_) ⟨i, Finset.mem_univ i, ?_⟩
  · by_cases hj : j = i
    · subst hj
      exact Nat.le_of_lt (h.rank_lt ht hl (by simp))
    · rw [h.point_of_ne (by simpa using hj)]
  · exact h.rank_lt ht hl (by simp)

/-- Nobody ticks beside a deadlock: the only worker alive is the one in it. -/
theorem Config.Deadlock.not_tickStep (hs : c.Sound) (hc : c.Orderly)
    (hd : c.Deadlock t intervalMs k) : ¬ TickStep asks j c c' := by
  intro h
  have hnone := h.point_eq_none
  rw [hc.alone j k h.isAlive (hd.isAlive hs), hd.stop] at hnone
  cases hnone

/-- Beside a deadlock, only calls from outside go on, and not for long. -/
theorem Config.Deadlock.remaining_lt (hs : c.Sound) (hc : c.Orderly)
    (hd : c.Deadlock t intervalMs k) (h : Act asks u c c') : c'.remaining < c.remaining := by
  have hlock := hd.lock_eq hs
  cases h with
  | tick h => exact (hd.not_tickStep hs hc h).elim
  | call h =>
    obtain ⟨ht, hk⟩ := hd.ne_of_callStep hs h
    have hnot : c.holds u = false := by
      rw [← Bool.not_eq_true, ← hs.holder u, hlock]
      simpa using ht.symm
    cases u with
    | caller i => exact h.remaining_lt hnot (by simp [hlock])
    | worker j =>
      obtain ⟨y, hy⟩ := h.exists_point
      have halive := Phase.isAlive_of_isServing (hs.serving j y hy)
      exact (hk (by rw [hc.alone j k halive (hd.isAlive hs)])).elim

/-- **From a deadlock the threads get stuck.** As long as something goes on, it takes one of
finitely many remaining steps. -/
theorem Config.Deadlock.exists_stuck (ha : OnlyStops asks) (hs : c.Sound) (hc : c.Orderly)
    (hd : c.Deadlock t intervalMs k) : ∃ c', Steps asks c c' ∧ c'.Stuck asks := by
  induction hm : c.remaining using Nat.strong_induction_on generalizing c with
  | _ m ih =>
    by_cases hstuck : ∃ u c', Act asks u c c'
    · obtain ⟨u, c', hact⟩ := hstuck
      have hstep : Step asks c c' := .act u hact
      obtain ⟨d, hsteps, hd'⟩ := ih _ (hm ▸ hd.remaining_lt hs hc hact) (hs.step hstep)
        (hc.step ha hs hstep) (hd.step hs hstep) rfl
      exact ⟨d, .head hstep hsteps, hd'⟩
    · refine ⟨c, .refl, .inl ⟨t, by simp [hd.restart]⟩, fun u c' hact => ?_⟩
      exact hstuck ⟨u, c', hact⟩

/-! ## The way in -/

/-- A worker in charge has called for a stop, and nobody has the lock. If a start from outside is
now faster, the two wait for each other. -/
theorem exists_deadlock_of_restart {i : Fin n} (hlock : c.lock = none)
    (hk : c.standing = .running k) (hstop : c.point (.worker k) = some (.called .stop))
    (hi : c.point (.caller i) = none) (hinterval : intervalMs ≠ 0) :
    ∃ c', Steps asks c c' ∧ c'.Deadlock (.caller i) intervalMs k := by
  refine ⟨?later, ?run, ?deadlock⟩
  case run =>
    refine .head (.begin (.call i (.start intervalMs) hi)) ?_
    refine .head (.act (.caller i) (.call (.acquire (.start intervalMs)
      (Function.update_self ..) (by simpa using hinterval) hlock))) ?_
    refine .head (.act (.caller i) (.call (.startInstead intervalMs k
      (Function.update_self ..) hk))) ?_
    refine .head (.act (.caller i) (.call (.tellOther (.replace intervalMs) k
      (Function.update_self ..) (by simp)))) ?_
    exact .refl
  case deadlock => exact ⟨Function.update_self .., by simp [hstop]⟩

end

/-- The first publisher of a scheduler stops it in its first call. A start makes the first worker
tick; the second start comes when the stop has been called, and is faster. -/
theorem reachable_deadlock :
    ∃ c : Config 1, Reachable (fun _ _ => []) c ∧ c.Deadlock (.caller 0) 20 0 := by
  let stops : Recorder := ⟨[], fun _ => ⟨true, .published⟩⟩
  let caller : Thread 1 := .caller 0
  let worker : Thread 1 := .worker 0
  have hstop : ∃ c : Config 1, Steps (fun _ _ => []) (.create 1 (.start 0) [.recorder stops]) c ∧
      c.lock = none ∧ c.standing = .running 0 ∧ c.point worker = some (.called .stop) ∧
      c.point caller = none := by
    refine ⟨?later, ?run, ?facts⟩
    case run =>
      refine .head (.begin (.call 0 (.start 10) rfl)) ?_
      refine .head (.act caller (.call (.acquire (.start 10) rfl (by decide) rfl))) ?_
      refine .head (.act caller (.call (.startAnew 10 rfl rfl))) ?_
      refine .head (.act caller (.call (.spawn 10 rfl))) ?_
      refine .head (.act caller (.call (.install 10 0 rfl))) ?_
      refine .head (.act caller (.call (.leave (.start 10) .done rfl))) ?_
      refine .head (.act worker (.tick (.readSample (.sample ⟨1, 1, 1⟩) ⟨⟨1, 1, 1⟩, []⟩
        rfl rfl rfl rfl))) ?_
      refine .head (.act worker (.tick (.takeIn ⟨1, 1, 1⟩ rfl rfl))) ?_
      refine .head (.act worker (.tick (.publish ⟨1, 1, 1⟩ 0 .published (.recorder stops)
        rfl rfl rfl))) ?_
      refine .head (.act worker (.tick (.serveAsk ⟨1, 1, 1⟩ 0 .published .published .stop []
        rfl rfl))) ?_
      exact .refl
    case facts => exact ⟨rfl, rfl, rfl, rfl⟩
  obtain ⟨c, hsteps, hlock, hk, hcalled, hi⟩ := hstop
  obtain ⟨c', hsteps', hd⟩ :=
    exists_deadlock_of_restart hlock hk hcalled hi (show (20 : UInt64) ≠ 0 by decide)
  exact ⟨c', ⟨.start 0, [.recorder stops], hsteps.trans hsteps'⟩, hd⟩

/-- **When the threads get stuck.** Let publishers ask for nothing but stops, and take whatever can
become of a new scheduler. The threads are stuck exactly where a start and the worker it replaces
wait for each other, and every other call waits too. Such a deadlock stays for ever; and the threads
can come to be stuck if and only if they can come to a deadlock. -/
theorem stuck_iff_deadlock {n : Nat} {asks : Publisher → Sample → List Request} {c : Config n}
    (ha : OnlyStops asks) (hc : Reachable asks c) :
    (c.Stuck asks ↔
      (∃ t intervalMs k, c.Deadlock t intervalMs k) ∧ ∀ u y, c.point u = some y → c.Blocks y) ∧
    (∀ t intervalMs k, c.Deadlock t intervalMs k →
      ∀ c', Steps asks c c' → c'.Deadlock t intervalMs k) ∧
    ((∃ c', Steps asks c c' ∧ c'.Stuck asks) ↔
      ∃ c', Steps asks c c' ∧ ∃ t intervalMs k, c'.Deadlock t intervalMs k) := by
  have hs := sound_of_reachable hc
  have horderly := orderly_of_reachable ha hc
  refine ⟨⟨fun h => ⟨exists_deadlock hs horderly h, ?_⟩, ?_⟩, ?_, ?_, ?_⟩
  · intro u y hy
    by_contra hgoes
    obtain ⟨c', hstep⟩ := exists_callStep hy hgoes
    exact h.2 u c' (.call hstep)
  · rintro ⟨⟨t, intervalMs, k, hd⟩, hblocks⟩
    refine ⟨.inl ⟨t, by simp [hd.restart]⟩, fun u c' hact => ?_⟩
    cases hact with
    | call h =>
      obtain ⟨y, hy⟩ := h.exists_point
      exact not_callStep_of_blocks hy (hblocks u y hy) h
    | tick h => exact hd.not_tickStep hs horderly h
  · exact fun t intervalMs k hd c' hsteps => hd.steps hs hsteps
  · rintro ⟨c', hsteps, hstuck⟩
    exact ⟨c', hsteps, exists_deadlock (hs.steps hsteps) (horderly.steps ha hs hsteps) hstuck⟩
  · rintro ⟨c', hsteps, t, intervalMs, k, hd⟩
    obtain ⟨d, hsteps', hstuck⟩ :=
      hd.exists_stuck ha (hs.steps hsteps) (horderly.steps ha hs hsteps)
    exact ⟨d, hsteps.trans hsteps', hstuck⟩

/-- The threads of a scheduler do get stuck. -/
theorem stuck_of_restart :
    ∃ c : Config 1, Reachable (fun _ _ => []) c ∧ c.Stuck (fun _ _ => []) := by
  have ha : OnlyStops fun _ _ => [] := fun _ _ r hr => by cases hr
  obtain ⟨c, hc, hd⟩ := reachable_deadlock
  obtain ⟨d, hsteps, hstuck⟩ :=
    hd.exists_stuck ha (sound_of_reachable hc) (orderly_of_reachable ha hc)
  obtain ⟨usage, publishers, hsteps₀⟩ := hc
  exact ⟨d, ⟨usage, publishers, hsteps₀.trans hsteps⟩, hstuck⟩

/-- A start and a stop from inside a tick that have met wait for ever, and then all threads do. -/
theorem stuck_iff_deadlock_of_restart :
    ∃ c : Config 1, c.Deadlock (.caller 0) 20 0 ∧
      (∀ c', Steps (fun _ _ => []) c c' → c'.Deadlock (.caller 0) 20 0) ∧
      ∃ c', Steps (fun _ _ => []) c c' ∧ c'.Stuck (fun _ _ => []) := by
  have ha : OnlyStops fun _ _ => [] := fun _ _ r hr => by cases hr
  obtain ⟨c, hc, hd⟩ := reachable_deadlock
  obtain ⟨-, hstays, hcomes⟩ := stuck_iff_deadlock ha hc
  exact ⟨c, hd, hstays _ _ _ hd, hcomes.mpr ⟨c, .refl, _, _, _, hd⟩⟩

end Threads

end IoWatch
