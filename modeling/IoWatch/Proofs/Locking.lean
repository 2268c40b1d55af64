import IoWatch.Proofs.Threads

/-!
# The lock

Whatever the threads do and whatever the publishers ask for, the lock is with the one thread whose
call needs it. Ticks and new calls happen beside the calls that are under way.

## Main definitions

* `Point.holdsLock`, `Config.holds`: the points of a call that need the lock
* `Beside`: a step that touches neither the lock nor a call that is under way
* `Config.Sound`: what holds of all threads at all times

## Main results

* `CallStep.lock_cases`, `CallStep.request_eq`, `CallStep.returned_cases`, `CallStep.unguarded`:
  what a step of a call can change
* `TickStep.beside`, `Begin.beside`: ticks and new calls are beside those under way
* `Config.Sound.steps`, `sound_of_reachable`: soundness is kept, and a new scheduler has it
* `Step.call_or_beside`: every step is of one of these kinds
* `Step.usage_cases`, `Step.takesIn_eq_false`: which steps change the usage, and who makes them
-/

namespace IoWatch

namespace Threads

open Function (update)

namespace Point

/-- The call that has come to a point. -/
def request : Point → Request
  | called r | locked r | leaving r _ => r
  | telling (.replace intervalMs) _ | joining (.replace intervalMs) _ => .start intervalMs
  | foundStopped intervalMs | hiring intervalMs | hired intervalMs _ => .start intervalMs
  | telling .stop _ | joining .stop _ | taken _ | stopping => .stop

/-- A call at this point has the lock. A start has it while it waits for the worker that it
replaces; a stop has let it go by then. -/
def holdsLock : Point → Bool
  | called _ | stopping | telling .stop _ | joining .stop _ => false
  | _ => true

/-- The worker that a call has taken or spawned, at a point where it knows of one. -/
def worker? : Point → Option Nat
  | taken k | telling _ k | joining _ k | hired _ k => some k
  | _ => none

end Point

namespace Phase

/-- A worker is inside a publisher. -/
def isServing : Phase → Bool
  | serving .. => true
  | _ => false

/-- A worker has been spawned and has not ended. -/
def isAlive : Phase → Bool
  | unborn | ended _ => false
  | _ => true

/-- A worker reads, or has a sample that the usage has not. -/
def takesIn : Phase → Bool
  | reading | updating _ => true
  | _ => false

theorem not_hasEnded_of_isAlive {x : Phase} (h : x.isAlive = true) : ¬ x.HasEnded := by
  rintro ⟨threadEnd, rfl⟩
  cases h

theorem isAlive_of_isServing {x : Phase} (h : x.isServing = true) : x.isAlive = true := by
  cases x with
  | serving => rfl
  | _ => cases h

theorem isAlive_of_takesIn {x : Phase} (h : x.takesIn = true) : x.isAlive = true := by
  cases x with
  | reading | updating => rfl
  | _ => cases h

theorem takesIn_of_isServing {x : Phase} (h : x.isServing = true) : x.takesIn = false := by
  cases x with
  | serving => rfl
  | _ => cases h

end Phase

section

variable {n : Nat} {asks : Publisher → Sample → List Request} {t u : Thread n} {j k : Nat}
  {c c' : Config n}

/-- A thread is at a point that needs the lock. -/
def Config.holds (c : Config n) (t : Thread n) : Bool := (c.point t).any Point.holdsLock

/-! ## What a step can change -/

namespace CallStep

theorem exists_point (h : CallStep t c c') : ∃ x, c.point t = some x := by
  cases h <;> exact ⟨_, ‹_›⟩

theorem point_of_ne (h : CallStep t c c') (hu : u ≠ t) : c'.point u = c.point u := by
  cases h <;> exact Function.update_of_ne hu ..

theorem holds_of_ne (h : CallStep t c c') (hu : u ≠ t) : c'.holds u = c.holds u := by
  rw [Config.holds, Config.holds, h.point_of_ne hu]

/-- A call takes the lock when it is free, and gives up no lock but its own. -/
theorem lock_cases (h : CallStep t c c') :
    c'.lock = c.lock ∧ c'.holds t = c.holds t ∨
      c.lock = none ∧ c'.lock = some t ∧ c.holds t = false ∧ c'.holds t = true ∨
      c'.lock = none ∧ c.holds t = true ∧ c'.holds t = false := by
  cases h with
  | tellOther purpose k h ht | tellSelf purpose k h ht | join purpose k h ht =>
    cases purpose <;> simp [Config.holds, h, Point.holdsLock, Purpose.relieved]
  | _ => simp_all [Config.holds, Point.holdsLock]

/-- A call stays the same call until it returns. -/
theorem request_eq (h : CallStep t c c') {x y : Point} (hx : c.point t = some x)
    (hy : c'.point t = some y) : y.request = x.request := by
  cases h with
  | tellOther purpose k | tellSelf purpose k | join purpose k =>
    cases purpose <;> grind [Point.request, Purpose.relieved]
  | _ => grind [Point.request]

/-- A call that is over has returned, and no other has. -/
theorem returned_cases (h : CallStep t c c') {x : Point} (hx : c.point t = some x) :
    c'.returned = c.returned ∧ (∃ y, c'.point t = some y) ∨
      c'.point t = none ∧ ∃ reply, c'.returned = c.returned ++ [(t, x.request, reply)] := by
  cases h with
  | refuse h | leave r reply h | stopped h =>
    obtain rfl := Option.some.inj (h.symm.trans hx)
    exact .inr ⟨Function.update_self .., _, rfl⟩
  | _ => exact .inl ⟨rfl, _, Function.update_self ..⟩

theorem told_mono (h : CallStep t c c') (hk : c.told k = true) : c'.told k = true := by
  cases h with
  | tellOther | tellSelf => grind [Function.update_apply]
  | _ => exact hk

theorem usage_eq (h : CallStep t c c') : c'.usage = c.usage := by
  cases h <;> rfl

/-- A worker that a call spawns has yet to read. -/
theorem phase_cases (h : CallStep t c c') (j : Nat) : c'.phase j = c.phase j ∨
    j = c.spawned ∧ c'.phase j = .reading := by
  cases h with
  | spawn intervalMs h =>
    by_cases hj : j = c.spawned
    · subst hj
      exact .inr ⟨rfl, Function.update_self ..⟩
    · exact .inl (Function.update_of_ne hj ..)
  | _ => exact .inl rfl

/-- Without the lock, a call touches neither what it guards nor a worker. -/
theorem unguarded (h : CallStep t c c') (ht : c.holds t = false) (ht' : c'.holds t = false) :
    c'.lock = c.lock ∧ c'.standing = c.standing ∧ c'.phase = c.phase := by
  cases h with
  | tellOther | tellSelf | join | refuse | stopped => exact ⟨rfl, rfl, rfl⟩
  | _ => simp_all [Config.holds, Point.holdsLock]

end CallStep

namespace TickStep

theorem point_eq_none (h : TickStep asks k c c') : c.point (.worker k) = none := by
  cases h <;> assumption

theorem isAlive (h : TickStep asks k c c') : (c.phase k).isAlive = true := by
  cases h <;> simp_all [Phase.isAlive]

theorem phase_ne_unborn (h : TickStep asks k c c') : c'.phase k ≠ .unborn := by
  cases h <;> simp

theorem returned_eq (h : TickStep asks k c c') : c'.returned = c.returned := by
  cases h <;> rfl

/-- A tick that has read takes its sample in at once, and no other sample. -/
theorem usage_cases (h : TickStep asks k c c') :
    (∃ x, c.phase k = .updating x ∧ (c'.phase k).takesIn = false ∧ c'.usage = c.usage.update x) ∨
      (∀ x, c.phase k ≠ .updating x) ∧ ((c'.phase k).takesIn = true → c.phase k = .reading) ∧
        c'.usage = c.usage := by
  cases h with
  | takeIn x hc h => exact .inl ⟨x, h, by simp [Phase.takesIn], rfl⟩
  | _ => simp_all [Phase.takesIn]

theorem phase_of_ne (h : TickStep asks k c c') (hj : j ≠ k) : c'.phase j = c.phase j := by
  cases h <;> exact Function.update_of_ne hj ..

/-- A tick makes a call from inside a publisher, or none. -/
theorem point_cases (h : TickStep asks k c c') : c'.point = c.point ∨
    ∃ r x p soFar todo outcome, c.phase k = .serving x p soFar (.ask r :: todo) outcome ∧
      c'.phase k = .serving x p soFar todo outcome ∧
      c'.point = update c.point (.worker k) (some (.called r)) := by
  cases h with
  | serveAsk x p soFar outcome r todo hc h =>
    exact .inr ⟨r, x, p, soFar, todo, outcome, h, Function.update_self .., rfl⟩
  | _ => exact .inl rfl

theorem point_of_ne (h : TickStep asks k c c') (hu : u ≠ .worker k) : c'.point u = c.point u := by
  rcases h.point_cases with hp | ⟨r, x, p, soFar, todo, outcome, -, -, hp⟩
  · rw [hp]
  · rw [hp, Function.update_of_ne hu]

end TickStep

/-- A step beside all calls that are under way: it leaves the lock and what it guards alone, sends
no message and spawns nobody. It may make a call. -/
structure Beside (c c' : Config n) : Prop where
  lock_eq : c'.lock = c.lock
  standing_eq : c'.standing = c.standing
  spawned_eq : c'.spawned = c.spawned
  told_eq : c'.told = c.told
  /-- Calls that are under way stay where they are. -/
  point_eq : ∀ u x, c.point u = some x → c'.point u = some x
  /-- Calls that were not have just been made. -/
  called : ∀ u x, c'.point u = some x → c.point u = some x ∨ ∃ r, x = .called r
  /-- Workers stay spawned or not. -/
  unborn_iff : ∀ j, c'.phase j = .unborn ↔ c.phase j = .unborn
  /-- None comes to life. -/
  isAlive : ∀ j, (c'.phase j).isAlive = true → (c.phase j).isAlive = true

theorem Beside.holds_eq (h : Beside c c') (u : Thread n) : c'.holds u = c.holds u := by
  cases hu : c.point u with
  | some x => rw [Config.holds, Config.holds, h.point_eq u x hu, hu]
  | none =>
    cases hu' : c'.point u with
    | none => rw [Config.holds, Config.holds, hu, hu']
    | some y =>
      rcases h.called u y hu' with hy | ⟨r, rfl⟩
      · rw [hu] at hy
        cases hy
      · simp [Config.holds, hu, hu', Point.holdsLock]

theorem TickStep.beside (h : TickStep asks k c c') : Beside c c' where
  lock_eq := by cases h <;> rfl
  standing_eq := by cases h <;> rfl
  spawned_eq := by cases h <;> rfl
  told_eq := by cases h <;> rfl
  point_eq u x hx := by
    rwa [h.point_of_ne]
    rintro rfl
    cases h.point_eq_none.symm.trans hx
  called u x hx := by
    by_cases hu : u = .worker k
    · rcases h.point_cases with hp | ⟨r, y, p, soFar, todo, outcome, -, -, hp⟩
      · exact .inl (hp ▸ hx)
      · rw [hp, hu, Function.update_self] at hx
        exact .inr ⟨r, (Option.some.inj hx).symm⟩
    · exact .inl (by rwa [h.point_of_ne hu] at hx)
  unborn_iff j := by
    by_cases hj : j = k
    · subst hj
      refine iff_of_false h.phase_ne_unborn fun hunborn => ?_
      have halive := h.isAlive
      rw [hunborn] at halive
      cases halive
    · rw [h.phase_of_ne hj]
  isAlive j hj := by
    by_cases hjk : j = k
    · exact hjk ▸ h.isAlive
    · rwa [← h.phase_of_ne hjk]

namespace Begin

theorem returned_eq (h : Begin c c') : c'.returned = c.returned := by
  cases h <;> rfl

theorem usage_eq (h : Begin c c') : c'.usage = c.usage := by
  cases h <;> rfl

theorem point_worker (h : Begin c c') (j : Nat) : c'.point (.worker j) = c.point (.worker j) := by
  cases h with
  | call i r h => simp
  | tick => rfl

/-- Only a waiting worker begins a tick. -/
theorem phase_cases (h : Begin c c') (j : Nat) : c'.phase j = c.phase j ∨
    c.point (.worker j) = none ∧ c.phase j = .waiting ∧ c'.phase j = .reading := by
  cases h with
  | call i r h => exact .inl rfl
  | tick k hc h =>
    by_cases hj : j = k
    · subst hj
      exact .inr ⟨hc, h, Function.update_self ..⟩
    · exact .inl (Function.update_of_ne hj ..)

theorem beside (h : Begin c c') : Beside c c' where
  lock_eq := by cases h <;> rfl
  standing_eq := by cases h <;> rfl
  spawned_eq := by cases h <;> rfl
  told_eq := by cases h <;> rfl
  point_eq u x hx := by
    cases h with
    | call i r h =>
      refine (Function.update_of_ne ?_ ..).trans hx
      rintro rfl
      cases h.symm.trans hx
    | tick => exact hx
  called u x hx := by
    cases h with
    | call i r h =>
      by_cases hu : u = .caller i
      · subst hu
        exact .inr ⟨r, by simpa using hx.symm⟩
      · exact .inl (by simpa [hu] using hx)
    | tick => exact .inl hx
  unborn_iff j := by
    rcases h.phase_cases j with hj | ⟨-, hj, hj'⟩
    · rw [hj]
    · simp [hj, hj']
  isAlive j hj := by
    rcases h.phase_cases j with heq | ⟨-, hwaiting, -⟩
    · rwa [← heq]
    · rw [hwaiting]
      rfl

end Begin

/-! ## What holds whatever the publishers ask for -/

/-- What holds among threads whatever the publishers ask for. -/
structure Config.Sound (c : Config n) : Prop where
  /-- The lock is with the thread at a point that needs it. -/
  holder : ∀ t, c.lock = some t ↔ c.holds t = true
  /-- Workers are spawned in order. -/
  unborn : ∀ k, c.phase k = .unborn ↔ c.spawned ≤ k
  /-- Only a worker that was spawned is in charge, -/
  inCharge : ∀ k, c.standing = .running k → k < c.spawned
  /-- and is taken, waited for or put in charge. -/
  known : ∀ t x k, c.point t = some x → x.worker? = some k → k < c.spawned
  /-- A worker that calls the scheduler is inside a publisher. -/
  serving : ∀ k x, c.point (.worker k) = some x → (c.phase k).isServing = true
  /-- No message waits for a worker that is yet to be spawned, -/
  untold : ∀ k, c.spawned ≤ k → c.told k = false
  /-- and one has been sent to any worker that is waited for. -/
  told : ∀ t purpose k, c.point t = some (.joining purpose k) → c.told k = true

namespace Config.Sound

theorem lock_of_point (hc : c.Sound) {x : Point} (h : c.point t = some x)
    (hx : x.holdsLock = true) : c.lock = some t := (hc.holder t).mpr (by simp [holds, h, hx])

theorem create (usage : Usage) (publishers : List Publisher) :
    (Config.create n usage publishers).Sound where
  holder t := by simp [Config.create, holds]
  unborn k := by simp [Config.create]
  inCharge k h := by cases h
  known t x k h := by cases h
  serving k x h := by cases h
  untold k _ := rfl
  told t purpose k h := by cases h

theorem callStep (hc : c.Sound) (h : CallStep t c c') : c'.Sound where
  holder u := by
    have hu := hc.holder u
    have ht := hc.holder t
    have hne : u ≠ t → c'.holds u = c.holds u := h.holds_of_ne
    -- A call that gets the lock finds it free, so nobody else held it; one that gives it up had it.
    rcases h.lock_cases with ⟨hl, hh⟩ | ⟨hl, hl', hh, hh'⟩ | ⟨hl, hh, hh'⟩ <;>
      by_cases hut : u = t <;> grind
  unborn k := by
    have hunborn := hc.unborn k
    cases h with
    | spawn => grind [Function.update_apply]
    | _ => exact hunborn
  inCharge k hk := by
    -- A start puts the worker in charge that it has spawned itself.
    have hinCharge := hc.inCharge k
    cases h with
    | install intervalMs j h =>
      obtain rfl : j = k := by simpa using hk
      exact hc.known t _ j h rfl
    | spawn => exact Nat.lt_succ_of_lt (hinCharge hk)
    | _ => grind
  known u x k hx hk := by
    have hknown := hc.known
    have hinCharge := hc.inCharge
    cases h with
    | tellSelf p | join p =>
      cases p <;> grind [Function.update_apply, Purpose.relieved, Point.worker?]
    | _ => grind [Function.update_apply, Point.worker?]
  serving j x hx := by
    have hunborn := (hc.unborn c.spawned).mpr (Nat.le_refl _)
    have hserving := hc.serving
    -- The worker that is spawned is a new one, and so is not inside a call.
    cases h <;> grind [Function.update_apply, Phase.isServing]
  untold k hk := by
    have huntold := hc.untold k
    cases h with
    | tellOther purpose j h | tellSelf purpose j h =>
      have hj : j < c.spawned := hc.known t _ j h rfl
      have hkj : c.spawned ≤ k := hk
      exact (Function.update_of_ne (by omega) ..).trans (huntold hkj)
    | spawn => exact huntold (Nat.le_of_succ_le hk)
    | _ => exact huntold hk
  told u purpose j hx := by
    -- A call comes to wait for a worker only by sending it the message.
    have htold := hc.told
    cases h with
    | tellSelf p | join p => cases p <;> grind [Function.update_apply, Purpose.relieved]
    | _ => grind [Function.update_apply]

theorem beside (hc : c.Sound) (h : Beside c c')
    (hserving : ∀ k x, c'.point (.worker k) = some x → (c'.phase k).isServing = true) :
    c'.Sound where
  holder u := by
    rw [h.lock_eq, h.holds_eq]
    exact hc.holder u
  unborn j := by
    rw [h.unborn_iff, h.spawned_eq]
    exact hc.unborn j
  inCharge j hj := by
    rw [h.spawned_eq]
    exact hc.inCharge j (h.standing_eq ▸ hj)
  known u x j hx hj := by
    rw [h.spawned_eq]
    rcases h.called u x hx with hx | ⟨r, rfl⟩
    · exact hc.known u x j hx hj
    · cases hj
  serving := hserving
  untold j hj := by
    rw [h.told_eq]
    exact hc.untold j (h.spawned_eq ▸ hj)
  told u purpose j hx := by
    rw [h.told_eq]
    rcases h.called u _ hx with hx | ⟨r, hr⟩
    · exact hc.told u purpose j hx
    · cases hr

/-- A worker makes a call only from inside a publisher, where it stays. -/
theorem tickStep (hc : c.Sound) (h : TickStep asks k c c') : c'.Sound := by
  refine hc.beside h.beside fun j x hx => ?_
  by_cases hj : j = k
  · subst hj
    rcases h.point_cases with hp | ⟨r, y, p, soFar, todo, outcome, -, hphase, -⟩
    · rw [hp, h.point_eq_none] at hx
      cases hx
    · rw [hphase]
      rfl
  · rw [h.point_of_ne (by simpa using hj)] at hx
    rw [h.phase_of_ne hj]
    exact hc.serving j x hx

theorem begin (hc : c.Sound) (h : Begin c c') : c'.Sound := by
  refine hc.beside h.beside fun j x hx => ?_
  rw [h.point_worker] at hx
  rcases h.phase_cases j with hj | ⟨hnone, -, -⟩
  · rw [hj]
    exact hc.serving j x hx
  · cases hnone.symm.trans hx

theorem step (hc : c.Sound) (h : Step asks c c') : c'.Sound := by
  cases h with
  | act t h =>
    cases h with
    | call h => exact hc.callStep h
    | tick h => exact hc.tickStep h
  | begin h => exact hc.begin h

/-- What holds of a configuration holds of all that can become of it. -/
theorem steps (hc : c.Sound) (h : Steps asks c c') : c'.Sound := by
  induction h with
  | refl => exact hc
  | tail _ hstep ih => exact ih.step hstep

end Config.Sound

theorem Reachable.step (hc : Reachable asks c) (h : Step asks c c') : Reachable asks c' := by
  obtain ⟨usage, publishers, hsteps⟩ := hc
  exact ⟨usage, publishers, hsteps.tail h⟩

theorem Reachable.steps (hc : Reachable asks c) (h : Steps asks c c') : Reachable asks c' := by
  obtain ⟨usage, publishers, hsteps⟩ := hc
  exact ⟨usage, publishers, hsteps.trans h⟩

theorem sound_of_reachable (h : Reachable asks c) : c.Sound := by
  obtain ⟨usage, publishers, hsteps⟩ := h
  exact (Config.Sound.create usage publishers).steps hsteps

/-! ## What the usage sees of a step -/

namespace Step

/-- A step is one of a call, or beside all calls, and then no call returns. -/
theorem call_or_beside (h : Step asks c c') :
    (∃ t, CallStep t c c') ∨ Beside c c' ∧ c'.returned = c.returned := by
  cases h with
  | act t h =>
    cases h with
    | call h => exact .inl ⟨t, h⟩
    | tick h => exact .inr ⟨h.beside, h.returned_eq⟩
  | begin h => exact .inr ⟨h.beside, h.returned_eq⟩

theorem told_mono (h : Step asks c c') (hk : c.told k = true) : c'.told k = true := by
  rcases h.call_or_beside with ⟨t, h⟩ | ⟨h, -⟩
  · exact h.told_mono hk
  · rwa [h.told_eq]

/-- A worker that has been told to end takes in no more than the sample that it has. -/
theorem takesIn_eq_false (hs : c.Sound) (h : Step asks c c') (htold : c.told k = true)
    (hk : (c.phase k).takesIn = false) : (c'.phase k).takesIn = false := by
  cases h with
  | act t h =>
    cases h with
    | call h =>
      rcases h.phase_cases k with heq | ⟨rfl, -⟩
      · rwa [heq]
      · cases (hs.untold _ (Nat.le_refl _)).symm.trans htold
    | tick h =>
      rename_i j
      by_cases hj : k = j
      · subst hj
        rcases h.usage_cases with ⟨x, -, hk', -⟩ | ⟨-, hreading, -⟩
        · exact hk'
        · rw [← Bool.not_eq_true]
          intro htakes
          rw [hreading htakes] at hk
          cases hk
      · rwa [h.phase_of_ne hj]
  | begin h =>
    cases h with
    | call => exact hk
    | tick j hc hwaiting huntold =>
      refine (congrArg Phase.takesIn (Function.update_of_ne ?_ ..)).trans hk
      rintro rfl
      cases huntold.symm.trans htold

/-- The usage changes where a worker takes in the sample that it has read. -/
theorem usage_cases (hs : c.Sound) (h : Step asks c c') :
    (∃ k x, c.phase k = .updating x ∧ (c'.phase k).takesIn = false ∧
      (∀ j, j ≠ k → c'.phase j = c.phase j) ∧ c'.usage = c.usage.update x) ∨
    c'.usage = c.usage ∧ ∀ j x, (c.phase j = .updating x → c'.phase j = .updating x) ∧
      (c'.phase j = .updating x → c.phase j = .updating x ∨ c.phase j = .reading) := by
  cases h with
  | act t h =>
    cases h with
    | call h =>
      refine .inr ⟨h.usage_eq, fun j x => ?_⟩
      rcases h.phase_cases j with heq | ⟨rfl, hreading⟩
      · rw [heq]
        exact ⟨id, .inl⟩
      · simp [hreading, (hs.unborn _).mpr (Nat.le_refl _)]
    | tick h =>
      rename_i k
      rcases h.usage_cases with ⟨x, hk, hk', husage⟩ | ⟨hk, hk', husage⟩
      · exact .inl ⟨k, x, hk, hk', fun j hj => h.phase_of_ne hj, husage⟩
      · refine .inr ⟨husage, fun j x => ?_⟩
        by_cases hj : j = k
        · subst hj
          exact ⟨fun hx => (hk x hx).elim, fun hx => .inr (hk' (by rw [hx]; rfl))⟩
        · rw [h.phase_of_ne hj]
          exact ⟨id, .inl⟩
  | begin h =>
    refine .inr ⟨h.usage_eq, fun j x => ?_⟩
    rcases h.phase_cases j with heq | ⟨-, hwaiting, hreading⟩
    · rw [heq]
      exact ⟨id, .inl⟩
    · simp [hwaiting, hreading]

end Step

end

end Threads

end IoWatch
