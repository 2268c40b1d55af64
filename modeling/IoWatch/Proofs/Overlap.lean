import IoWatch.Proofs.Deadlock

/-!
# A restart from inside a tick

A start that takes the worker on whose thread it runs tells this worker to end, does not wait for
it, and spawns another one beside it. This is the one way in which ticks come to overlap. The worker
that is left behind has taken in its last sample by then; so there is still one worker at most that
reads or has a sample for the usage, and the usage sees all samples in the order in which they are
read.

## Main definitions

* `Config.Overlap`: two workers are inside ticks
* `Config.Detached`: a worker that reads no more, with a publisher that has called for a start
* `Reads`: what can become of a scheduler, with the samples that are read
* `Config.TakesInOrder`: the usage has all samples in the order in which they were read

## Main results

* `governed_attached`: all workers alive are detached but one
* `Reads.takesInOrder`: samples are taken in as they are read
* `ticks_overlap_iff`: when ticks overlap, and what holds if they do
-/

namespace IoWatch

namespace Threads

open Function (update)

section

variable {n : Nat} {asks : Publisher → Sample → List Request} {t : Thread n} {j k : Nat}
  {c₀ c c' : Config n}

namespace Config

/-- Two workers are inside ticks. -/
def Overlap (c : Config n) : Prop :=
  ∃ j k, j ≠ k ∧ (c.phase j).inTick = true ∧ (c.phase k).inTick = true

/-- A publisher of a worker has called for a start. -/
def AsksStart (c : Config n) (k : Nat) : Prop :=
  ∃ intervalMs, (∃ x, c.point (.worker k) = some x ∧ x.request = .start intervalMs) ∨
    ∃ reply, (.worker k, .start intervalMs, reply) ∈ c.returned

/-- A worker has been told to end and reads no more, and one of its publishers has called for a
start. So it is with a worker that a start of its own has left behind. -/
structure Detached (c : Config n) (k : Nat) : Prop where
  told : c.told k = true
  takesIn : (c.phase k).takesIn = false
  asksStart : c.AsksStart k

/-- A worker is alive and not so. -/
def Attached (c : Config n) (k : Nat) : Prop := (c.phase k).isAlive = true ∧ ¬ c.Detached k

theorem attached_of_takesIn (h : (c.phase k).takesIn = true) : c.Attached k := by
  refine ⟨Phase.isAlive_of_takesIn h, fun hd => ?_⟩
  rw [hd.takesIn] at h
  cases h

end Config

theorem Phase.inTick_of_isServing {x : Phase} (h : x.isServing = true) : x.inTick = true := by
  cases x with
  | serving => rfl
  | _ => cases h

theorem Phase.isAlive_of_inTick {x : Phase} (h : x.inTick = true) : x.isAlive = true := by
  cases x with
  | unborn | waiting | ended => cases h
  | _ => rfl

/-! ## Detached workers -/

/-- A worker that has asked for a start has it still under way, or it has returned. -/
theorem CallStep.asksStart (h : CallStep t c c') (hk : c.AsksStart k) : c'.AsksStart k := by
  obtain ⟨intervalMs, ⟨x, hx, hrequest⟩ | ⟨reply, hmem⟩⟩ := hk
  · by_cases ht : .worker k = t
    · subst ht
      rcases h.returned_cases hx with ⟨-, y, hy⟩ | ⟨-, reply, hreturned⟩
      · exact ⟨intervalMs, .inl ⟨y, hy, (h.request_eq hx hy).trans hrequest⟩⟩
      · exact ⟨intervalMs, .inr ⟨reply, by simp [hreturned, hrequest]⟩⟩
    · exact ⟨intervalMs, .inl ⟨x, (h.point_of_ne ht).trans hx, hrequest⟩⟩
  · refine ⟨intervalMs, .inr ⟨reply, ?_⟩⟩
    obtain ⟨x, hx⟩ := h.exists_point
    rcases h.returned_cases hx with ⟨hreturned, -⟩ | ⟨-, reply', hreturned⟩
    · rwa [hreturned]
    · rw [hreturned]
      exact List.mem_append_left _ hmem

theorem Beside.asksStart (h : Beside c c') (hreturned : c'.returned = c.returned)
    (hk : c.AsksStart k) : c'.AsksStart k := by
  obtain ⟨intervalMs, ⟨x, hx, hrequest⟩ | ⟨reply, hmem⟩⟩ := hk
  · exact ⟨intervalMs, .inl ⟨x, h.point_eq _ x hx, hrequest⟩⟩
  · exact ⟨intervalMs, .inr ⟨reply, hreturned ▸ hmem⟩⟩

namespace Config.Detached

/-- A detached worker stays so. -/
theorem step (hs : c.Sound) (h : Step asks c c') (hk : c.Detached k) : c'.Detached k where
  told := h.told_mono hk.told
  takesIn := h.takesIn_eq_false hs hk.told hk.takesIn
  asksStart := by
    rcases h.call_or_beside with ⟨t, h⟩ | ⟨h, hreturned⟩
    · exact h.asksStart hk.asksStart
    · exact h.asksStart hreturned hk.asksStart

/-- A start that takes the worker on whose thread it runs detaches it. -/
theorem of_ownRestart (hs : c.Sound) (h : CallStep (.worker k) c c') {intervalMs : UInt64}
    (hk : c.point (.worker k) = some (.telling (.replace intervalMs) k)) : c'.Detached k := by
  have hserving := Phase.takesIn_of_isServing (hs.serving k _ hk)
  cases h with
  | tellSelf purpose j h ht =>
    obtain ⟨rfl, rfl⟩ : purpose = .replace intervalMs ∧ j = k := by simpa [h] using hk
    exact ⟨Function.update_self .., hserving,
      intervalMs, .inl ⟨_, Function.update_self .., rfl⟩⟩
  | tellOther purpose j h ht =>
    obtain ⟨-, rfl⟩ : purpose = .replace intervalMs ∧ j = k := by simpa [h] using hk
    exact (ht rfl).elim
  | _ => simp_all

end Config.Detached

/-! ## The others -/

namespace Config.Governed

/-- Who is told to end by a start of its own is detached from then on. -/
theorem step_attached (hs : c.Sound) (hc : c.Governed c.Attached) (h : Step asks c c') :
    c'.Governed c'.Attached := by
  have hstays : ∀ k, c'.Attached k → (c.phase k).isAlive = true → c.Attached k := by
    intro k hk halive
    exact ⟨halive, fun hd => hk.2 (hd.step hs h)⟩
  rcases h.call_or_beside with ⟨t, h⟩ | ⟨h, -⟩
  · refine hc.callStep hs h ?_ ?_ ?_
    · intro k hk hphase
      exact hstays k hk (hphase ▸ hk.1)
    · exact fun k hk => Phase.not_hasEnded_of_isAlive hk.1
    · rintro k intervalMs rfl hpoint hk
      exact hk.2 (.of_ownRestart hs h hpoint)
  · exact hc.beside hs h fun k hk => hstays k hk (h.isAlive k hk.1)

theorem step_alive (hs : c.Sound) (hc : c.Governed fun k => (c.phase k).isAlive = true)
    (hno : ¬ c.OwnRestart) (h : Step asks c c') :
    c'.Governed fun k => (c'.phase k).isAlive = true := by
  rcases h.call_or_beside with ⟨t, h⟩ | ⟨h, -⟩
  · exact hc.callStep_alive hs h hno
  · exact hc.beside hs h h.isAlive

theorem create (usage : Usage) (publishers : List Publisher) (live : Nat → Prop)
    (hlive : ∀ k, ((Config.create n usage publishers).phase k).isAlive = false → ¬ live k) :
    (Config.create n usage publishers).Governed live where
  alone j _ hj := (hlive j rfl hj).elim
  mayLive k hk := (hlive k rfl hk).elim

end Config.Governed

section Reachable

variable {usage : Usage} {publishers : List Publisher}

/-- **One worker at most is alive and not detached.** -/
theorem governed_attached (h : Steps asks (.create n usage publishers) c) :
    c.Governed c.Attached := by
  induction h with
  | refl => exact .create usage publishers _ fun k hk h => by cases h.1
  | tail hsteps hstep ih =>
    exact ih.step_attached ((Config.Sound.create usage publishers).steps hsteps) hstep

theorem governed_alive (h : Steps asks (.create n usage publishers) c)
    (hno : ∀ c' : Config n, Steps asks (.create n usage publishers) c' → ¬ c'.OwnRestart) :
    c.Governed fun k => (c.phase k).isAlive = true := by
  induction h with
  | refl => exact .create usage publishers _ fun k hk h => by cases h
  | tail hsteps hstep ih =>
    exact ih.step_alive ((Config.Sound.create usage publishers).steps hsteps) (hno _ hsteps) hstep

end Reachable

/-! ## The way in -/

/-- A publisher of the worker in charge has called for a start, and nobody has the lock. -/
theorem exists_ownRestart_of_call {intervalMs : UInt64} (hlock : c.lock = none)
    (hk : c.standing = .running k)
    (hstart : c.point (.worker k) = some (.called (.start intervalMs)))
    (hinterval : intervalMs ≠ 0) : ∃ c', Steps asks c c' ∧ c'.OwnRestart := by
  refine ⟨?later, ?run, k, intervalMs, ?own⟩
  case run =>
    refine .head (.act (.worker k) (.call (.acquire (.start intervalMs) hstart
      (by simpa using hinterval) hlock))) ?_
    refine .head (.act (.worker k) (.call (.startInstead intervalMs k
      (Function.update_self ..) hk))) ?_
    exact .refl
  case own => exact Function.update_self ..

/-- A start that takes the worker on whose thread it runs makes ticks overlap. -/
theorem Config.OwnRestart.exists_overlap (hs : c.Sound) (h : c.OwnRestart) :
    ∃ c', Steps asks c c' ∧ c'.Overlap := by
  obtain ⟨k, intervalMs, hk⟩ := h
  have hserving := hs.serving k _ hk
  have hne : k ≠ c.spawned := Nat.ne_of_lt (hs.known _ _ k hk rfl)
  refine ⟨?later, ?run, k, c.spawned, hne, ?own, ?other⟩
  case run =>
    refine .head (.act (.worker k) (.call (.tellSelf (.replace intervalMs) k hk rfl))) ?_
    refine .head (.act (.worker k) (.call (.spawn intervalMs (Function.update_self ..)))) ?_
    exact .refl
  case own =>
    refine (congrArg Phase.inTick (Function.update_of_ne hne ..)).trans ?_
    exact Phase.inTick_of_isServing hserving
  case other => exact congrArg Phase.inTick (Function.update_self c.spawned Phase.reading c.phase)

/-! ## The samples that are read -/

variable (asks) in
/-- What can become of a scheduler, with the samples that are read, oldest first. -/
inductive Reads (c₀ : Config n) : List Sample → Config n → Prop
  | refl : Reads c₀ [] c₀
  /-- A worker reads a sample. -/
  | read {xs : List Sample} {c c' : Config n} (k : Nat) (x : Sample) (h : Reads c₀ xs c)
      (hstep : Step asks c c') (hk : c.phase k = .reading) (hx : c'.phase k = .updating x) :
      Reads c₀ (xs ++ [x]) c'
  /-- No worker does. -/
  | other {xs : List Sample} {c c' : Config n} (h : Reads c₀ xs c) (hstep : Step asks c c')
      (hno : ∀ k x, c.phase k = .reading → c'.phase k ≠ .updating x) : Reads c₀ xs c'

theorem Reads.steps {xs : List Sample} (h : Reads asks c₀ xs c) : Steps asks c₀ c := by
  induction h with
  | refl => exact .refl
  | read k x _ hstep _ _ ih | other _ hstep _ ih => exact ih.tail hstep

theorem exists_reads (h : Steps asks c₀ c) : ∃ xs, Reads asks c₀ xs c := by
  induction h with
  | refl => exact ⟨[], .refl⟩
  | @tail c c' _ hstep ih =>
    obtain ⟨xs, hxs⟩ := ih
    by_cases hread : ∃ k x, c.phase k = .reading ∧ c'.phase k = .updating x
    · obtain ⟨k, x, hk, hx⟩ := hread
      exact ⟨xs ++ [x], hxs.read k x hstep hk hx⟩
    · exact ⟨xs, hxs.other hstep fun k x hk hx => hread ⟨k, x, hk, hx⟩⟩

/-- The usage has seen all samples in the order in which they were read, but for the last one if
there is a worker that has yet to take it in. -/
def Config.TakesInOrder (c : Config n) (usage : Usage) (xs : List Sample) : Prop :=
  (∃ k x ys, c.phase k = .updating x ∧ xs = ys ++ [x] ∧ c.usage = usage.updateAll ys) ∨
    (∀ k x, c.phase k ≠ .updating x) ∧ c.usage = usage.updateAll xs

namespace Config.TakesInOrder

variable {usage : Usage} {xs : List Sample} {x : Sample} (hs : c.Sound)
  (halone : ∀ j k, (c.phase j).takesIn = true → (c.phase k).takesIn = true → j = k)
  (hc : c.TakesInOrder usage xs) (h : Step asks c c')
include hs halone hc h

theorem read (hk : c.phase k = .reading) (hx : c'.phase k = .updating x) :
    c'.TakesInOrder usage (xs ++ [x]) := by
  have hnone : ∀ i y, c.phase i ≠ .updating y := by
    intro i y hi
    obtain rfl := halone i k (by rw [hi]; rfl) (by rw [hk]; rfl)
    cases hi.symm.trans hk
  rcases hc with ⟨i, y, -, hi, -⟩ | ⟨-, husage⟩
  · exact (hnone i y hi).elim
  · rcases h.usage_cases hs with ⟨i, y, hi, -⟩ | ⟨heq, -⟩
    · exact (hnone i y hi).elim
    · exact .inl ⟨k, x, xs, hx, rfl, heq.trans husage⟩

theorem other (hno : ∀ k x, c.phase k = .reading → c'.phase k ≠ .updating x) :
    c'.TakesInOrder usage xs := by
  rcases h.usage_cases hs with ⟨k, x, hk, hk', hne, husage'⟩ | ⟨husage', hphase⟩
  · have hnone : ∀ j y, c'.phase j ≠ .updating y := by
      intro j y hj
      by_cases hjk : j = k
      · subst hjk
        rw [hj] at hk'
        cases hk'
      · rw [hne j hjk] at hj
        exact hjk (halone j k (by rw [hj]; rfl) (by rw [hk]; rfl))
    rcases hc with ⟨j, y, ys, hj, rfl, husage⟩ | ⟨hnot, -⟩
    · obtain rfl := halone j k (by rw [hj]; rfl) (by rw [hk]; rfl)
      obtain rfl : y = x := by simpa [hj] using hk
      exact .inr ⟨hnone, by simp [husage', husage, Usage.updateAll]⟩
    · exact (hnot k x hk).elim
  · rcases hc with ⟨j, y, ys, hj, hxs, husage⟩ | ⟨hnot, husage⟩
    · exact .inl ⟨j, y, ys, (hphase j y).1 hj, hxs, husage'.trans husage⟩
    · refine .inr ⟨fun j y hj => ?_, husage'.trans husage⟩
      rcases (hphase j y).2 hj with hy | hreading
      · exact hnot j y hy
      · exact hno j y hreading hj

end Config.TakesInOrder

theorem Config.Governed.takesIn (hc : c.Governed c.Attached)
    (hj : (c.phase j).takesIn = true) (hk : (c.phase k).takesIn = true) : j = k :=
  hc.alone j k (attached_of_takesIn hj) (attached_of_takesIn hk)

/-- **Samples are taken in as they are read**, whatever the publishers ask for. -/
theorem Reads.takesInOrder {usage : Usage} {publishers : List Publisher} {xs : List Sample}
    (h : Reads asks (.create n usage publishers) xs c) : c.TakesInOrder usage xs := by
  have hnew := Config.Sound.create (n := n) usage publishers
  induction h with
  | refl => exact .inr ⟨fun k x => Phase.noConfusion, rfl⟩
  | read k x h hstep hk hx ih =>
    exact ih.read (hnew.steps h.steps) (fun _ _ => (governed_attached h.steps).takesIn) hstep hk hx
  | other h hstep hno ih =>
    exact ih.other (hnew.steps h.steps) (fun _ _ => (governed_attached h.steps).takesIn) hstep hno

end

/-- The only publisher of a scheduler starts it anew in each call. -/
theorem reachable_ownRestart :
    ∃ c : Config 1, Steps (fun _ _ => [.start 5])
      (.create 1 (.start 0) [.recorder ⟨[], fun _ => ⟨false, .published⟩⟩]) c ∧ c.OwnRestart := by
  let starts : Publisher → Sample → List Request := fun _ _ => [.start 5]
  let keeps : Recorder := ⟨[], fun _ => ⟨false, .published⟩⟩
  let caller : Thread 1 := .caller 0
  let worker : Thread 1 := .worker 0
  have hcalled : ∃ c : Config 1, Steps starts (.create 1 (.start 0) [.recorder keeps]) c ∧
      c.lock = none ∧ c.standing = .running 0 ∧ c.point worker = some (.called (.start 5)) := by
    refine ⟨?later, ?run, ?facts⟩
    case run =>
      refine .head (.begin (.call 0 (.start 10) rfl)) ?_
      refine .head (.act caller (.call (.acquire (.start 10) rfl (by decide) rfl))) ?_
      refine .head (.act caller (.call (.startAnew 10 rfl rfl))) ?_
      refine .head (.act caller (.call (.spawn 10 rfl))) ?_
      refine .head (.act caller (.call (.install 10 0 rfl))) ?_
      refine .head (.act caller (.call (.leave (.start 10) .done rfl))) ?_
      refine .head (.act worker (.tick (.readSample (.sample ⟨1, 1, 1⟩) ⟨⟨1, 1, 1⟩, []⟩
        rfl rfl rfl rfl))) ?_
      refine .head (.act worker (.tick (.takeIn ⟨1, 1, 1⟩ rfl rfl))) ?_
      refine .head (.act worker (.tick (.publish ⟨1, 1, 1⟩ 0 .published (.recorder keeps)
        rfl rfl rfl))) ?_
      refine .head (.act worker (.tick (.serveAsk ⟨1, 1, 1⟩ 0 .published .published (.start 5) []
        rfl rfl))) ?_
      exact .refl
    case facts => exact ⟨rfl, rfl, rfl⟩
  obtain ⟨c, hsteps, hlock, hk, hstart⟩ := hcalled
  obtain ⟨c', hsteps', hown⟩ :=
    exists_ownRestart_of_call hlock hk hstart (show (5 : UInt64) ≠ 0 by decide)
  exact ⟨c', hsteps.trans hsteps', hown⟩

/-- **When ticks overlap.** Take all that can become of a new scheduler, whatever its publishers ask
for. Ticks can come to overlap if and only if a start can come to take the worker on whose thread it
runs; so they never do where publishers ask for nothing but stops. And at all times, one worker at
most reads or has a sample that the usage has not; of two workers inside ticks, one has been told to
end, reads no more, and has a publisher that called for a start; and the usage has the samples in
the order in which they were read. -/
theorem ticks_overlap_iff {n : Nat} (asks : Publisher → Sample → List Request) (usage : Usage)
    (publishers : List Publisher) :
    let new : Config n := .create n usage publishers
    ((∃ c, Steps asks new c ∧ c.Overlap) ↔ ∃ c, Steps asks new c ∧ c.OwnRestart) ∧
    (OnlyStops asks → ∀ c, Steps asks new c → ¬ c.Overlap) ∧
    ∀ c, Steps asks new c →
      (∀ j k, (c.phase j).takesIn = true → (c.phase k).takesIn = true → j = k) ∧
      (∀ j k, j ≠ k → (c.phase j).inTick = true → (c.phase k).inTick = true →
        c.Detached j ∨ c.Detached k) ∧
      (∃ xs, Reads asks new xs c) ∧ ∀ xs, Reads asks new xs c → c.TakesInOrder usage xs := by
  intro new
  have hnew : new.Sound := .create usage publishers
  refine ⟨⟨?_, ?_⟩, ?_, fun c hc => ⟨?_, ?_, exists_reads hc, fun xs h => h.takesInOrder⟩⟩
  · rintro ⟨c, hc, j, k, hne, hj, hk⟩
    by_contra hno
    have halive := governed_alive hc fun c' hc' hown => hno ⟨c', hc', hown⟩
    exact hne (halive.alone j k (Phase.isAlive_of_inTick hj) (Phase.isAlive_of_inTick hk))
  · rintro ⟨c, hc, hown⟩
    obtain ⟨c', hc', hoverlap⟩ : ∃ c', Steps asks c c' ∧ c'.Overlap :=
      hown.exists_overlap (hnew.steps hc)
    exact ⟨c', hc.trans hc', hoverlap⟩
  · rintro ha c hc ⟨j, k, hne, hj, hk⟩
    have horderly := orderly_of_reachable ha ⟨usage, publishers, hc⟩
    exact hne (horderly.alone j k (Phase.isAlive_of_inTick hj) (Phase.isAlive_of_inTick hk))
  · exact fun j k => (governed_attached hc).takesIn
  · intro j k hne hj hk
    by_contra hdetached
    rw [not_or] at hdetached
    exact hne ((governed_attached hc).alone j k ⟨Phase.isAlive_of_inTick hj, hdetached.1⟩
      ⟨Phase.isAlive_of_inTick hk, hdetached.2⟩)

/-- Ticks do overlap. -/
theorem overlap_of_own_restart :
    ∃ c : Config 1, Reachable (fun _ _ => [.start 5]) c ∧
      ∃ j k, j ≠ k ∧ (c.phase j).inTick = true ∧ (c.phase k).inTick = true := by
  obtain ⟨c, hc, hown⟩ := reachable_ownRestart
  obtain ⟨c', hc', hoverlap⟩ := hown.exists_overlap ((Config.Sound.create _ _).steps hc)
  exact ⟨c', ⟨_, _, hc.trans hc'⟩, hoverlap⟩

/-- Where a publisher starts its scheduler anew, ticks overlap, one of them of a detached worker;
where publishers ask for nothing, they do not. -/
theorem ticks_overlap_iff_own_restart :
    let publishers : List Publisher := [.recorder ⟨[], fun _ => ⟨false, .published⟩⟩]
    let new : Config 1 := .create 1 (.start 0) publishers
    (∃ c, Steps (fun _ _ => [.start 5]) new c ∧ c.Overlap ∧ (∃ k, c.Detached k) ∧
      ∃ xs, Reads (fun _ _ => [.start 5]) new xs c ∧ c.TakesInOrder (.start 0) xs) ∧
    ∀ c, Steps (fun _ _ => []) new c → ¬ c.Overlap := by
  intro publishers new
  obtain ⟨hiff, -, hall⟩ :=
    ticks_overlap_iff (n := 1) (fun _ _ => [.start 5]) (.start 0) publishers
  obtain ⟨c, hc, hoverlap⟩ := hiff.mpr reachable_ownRestart
  obtain ⟨-, hdetached, ⟨xs, hxs⟩, horder⟩ := hall c hc
  obtain ⟨-, hnever, -⟩ := ticks_overlap_iff (n := 1) (fun _ _ => []) (.start 0) publishers
  refine ⟨⟨c, hc, hoverlap, ?_, xs, hxs, horder xs hxs⟩, hnever fun _ _ r hr => by cases hr⟩
  obtain ⟨j, k, hne, hj, hk⟩ := hoverlap
  rcases hdetached j k hne hj hk with h | h
  · exact ⟨j, h⟩
  · exact ⟨k, h⟩

end Threads

end IoWatch
