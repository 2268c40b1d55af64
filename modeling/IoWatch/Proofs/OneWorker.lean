import IoWatch.Proofs.Locking

/-!
# One worker at a time

Where publishers ask their scheduler for nothing but stops, no two workers are alive at the same
time. The thread with the lock knows who may be: a start spawns a worker only when the worker it
took has ended, and a worker that stops its own scheduler finds itself in charge and does not wait.

## Main definitions

* `OnlyStops`: publishers ask for nothing but stops
* `Config.MayLive`: the workers that may be alive, as the thread with the lock sees it
* `Config.Governed`: there is at most one worker of a kind, and the thread with the lock knows which
* `Config.OwnRestart`: a start has taken the worker on whose thread it runs
* `Config.Orderly`: nobody else is alive, and nobody but a caller from outside waits

## Main results

* `Config.Governed.callStep`, `Config.Governed.beside`: when a step keeps a kind of worker governed
* `Config.Orderly.callStep`, `Config.Orderly.tickStep`, `Config.Orderly.begin`: every step keeps the
  order
* `Config.Orderly.steps`, `orderly_of_reachable`: so do all steps, and a new scheduler is in order
-/

namespace IoWatch

namespace Threads

open Function (update)

section

variable {n : Nat} {asks : Publisher → Sample → List Request} {t : Thread n} {k : Nat}
  {c c' : Config n}

/-- Publishers ask for nothing but stops. -/
def OnlyStops (asks : Publisher → Sample → List Request) : Prop :=
  ∀ publisher x, ∀ r ∈ asks publisher x, r = .stop

theorem OnlyStops.eq_stop_of_mem_deeds (ha : OnlyStops asks) {publisher : Publisher}
    {usage : Usage} {x : Sample} {r : Request}
    (hr : Deed.ask r ∈ deeds asks publisher usage x) : r = .stop := by
  rcases List.mem_append.mp hr with heffect | hask
  · obtain ⟨effect, -, heffect⟩ := List.mem_map.mp heffect
    cases effect <;> cases heffect
    rfl
  · obtain ⟨r', hmem, hr'⟩ := List.mem_map.mp hask
    cases hr'
    exact ha publisher x r hmem

/-- The workers that may be alive while nobody has the lock. -/
def Standing.MayLive : Standing → Nat → Prop
  | created, _ => False
  | running j, k => k = j
  | stopped, _ => True

/-- The workers that may be alive while a thread with the lock is at a point. A start that has taken
away what the lock guards knows itself whom it waits for or has spawned. -/
def Point.MayLive (standing : Standing) : Point → Nat → Prop
  | telling (.replace _) j, k | joining (.replace _) j, k | hired _ j, k => k = j
  | hiring _, _ => False
  | foundStopped _, _ => True
  | _, k => standing.MayLive k

/-- The point at which the thread with the lock is. -/
def Config.inside (c : Config n) : Option Point := c.lock.bind c.point

/-- The workers that may be alive. -/
def Config.MayLive (c : Config n) (k : Nat) : Prop :=
  c.inside.elim (c.standing.MayLive k) (Point.MayLive c.standing · k)

/-- A start has taken the worker on whose thread it runs, and is going to tell it to end. -/
def Config.OwnRestart (c : Config n) : Prop :=
  ∃ k intervalMs, c.point (.worker k) = some (.telling (.replace intervalMs) k)

/-- A call of a worker that neither takes nor waits for another one. -/
def Point.IsOwn (k : Nat) : Point → Prop
  | taken j | telling _ j => j = k
  | joining .. => False
  | _ => True

/-- What holds among threads where publishers ask for nothing but stops. -/
structure Config.Orderly (c : Config n) : Prop where
  /-- Workers call for nothing but stops. -/
  stops : ∀ k x, c.point (.worker k) = some x → x.request = .stop
  /-- Neither will they in the call that they serve. -/
  todo : ∀ k x p soFar todo outcome, c.phase k = .serving x p soFar todo outcome →
    ∀ r, Deed.ask r ∈ todo → r = .stop
  /-- No two workers are alive. -/
  alone : ∀ j k, (c.phase j).isAlive = true → (c.phase k).isAlive = true → j = k
  /-- The thread with the lock knows which one may be. -/
  mayLive : ∀ k, (c.phase k).isAlive = true → c.MayLive k
  /-- A worker stops nobody but itself. -/
  own : ∀ k x, c.point (.worker k) = some x → x.IsOwn k

theorem Config.Sound.inside_of_point (hc : c.Sound) {x : Point} (h : c.point t = some x)
    (hx : x.holdsLock = true) : c.inside = some x := by
  rw [inside, hc.lock_of_point h hx, Option.bind_some, h]

/-- A call without the lock leaves the thread with the lock where it is. -/
theorem CallStep.inside_eq (hc : c.Sound) (h : CallStep t c c') (hl : c'.lock = c.lock)
    (ht : c.holds t = false) : c'.inside = c.inside := by
  rw [Config.inside, Config.inside, hl]
  cases hu : c.lock with
  | none => rfl
  | some u =>
    refine h.point_of_ne ?_
    rintro rfl
    rw [(hc.holder u).mp hu] at ht
    cases ht

/-- Nor does a step beside the calls move it. -/
theorem Beside.inside_eq (h : Beside c c') (hs : c.Sound) : c'.inside = c.inside := by
  rw [Config.inside, Config.inside, h.lock_eq]
  cases hu : c.lock with
  | none => rfl
  | some u =>
    obtain ⟨x, hx, -⟩ := (Option.any_eq_true ..).mp ((hs.holder u).mp hu)
    exact (h.point_eq u x hx).trans hx.symm

/-- There is at most one worker of a kind, and the thread with the lock knows which. -/
structure Config.Governed (c : Config n) (live : Nat → Prop) : Prop where
  alone : ∀ j k, live j → live k → j = k
  mayLive : ∀ k, live k → c.MayLive k

namespace Config.Governed

variable {live live' : Nat → Prop}

theorem nobody_of_hiring (hs : c.Sound) (hc : c.Governed live) {intervalMs : UInt64}
    (h : c.point t = some (.hiring intervalMs)) : ¬ live k := by
  intro hk
  simpa [MayLive, hs.inside_of_point h rfl, Point.MayLive] using hc.mayLive k hk

section Call

variable (hs : c.Sound) (hc : c.Governed live) (h : CallStep t c c')
  (hlive : ∀ k, live' k → c'.phase k = c.phase k → live k)
  (hended : ∀ k, live' k → ¬ (c'.phase k).HasEnded)
  (hself : ∀ k intervalMs, t = .worker k →
    c.point t = some (.telling (.replace intervalMs) k) → ¬ live' k)
include hs hc h hlive hended hself

/-- Who may be alive is seen from the thread with the lock. A call without it leaves this thread
where it is. -/
theorem callStep_mayLive (hk : live' k) : c'.MayLive k := by
  by_cases ht : c.holds t = false ∧ c'.holds t = false
  · obtain ⟨hlock, hstanding, hphase⟩ := h.unguarded ht.1 ht.2
    rw [MayLive, h.inside_eq hs hlock ht.1, hstanding]
    exact hc.mayLive k (hlive k hk (congrFun hphase k))
  have hold := hc.mayLive k
  have hlive := hlive k hk
  cases h with
  | refuse h | stopped h => simp [holds, h, Point.holdsLock] at ht
  | acquire r h hr hlock =>
    -- The lock was free, so what it guards told who may be alive.
    simp only [MayLive, inside, hlock, Option.bind_none, Option.elim_none] at hold
    simpa [MayLive, inside, Point.MayLive] using hold (hlive rfl)
  | spawn intervalMs h =>
    -- Nobody was alive, so the new worker is the only one who is.
    have hl := hs.lock_of_point h rfl
    by_cases hk' : k = c.spawned
    · simpa [MayLive, inside, hl, Point.MayLive] using hk'
    · exact (hc.nobody_of_hiring hs h (hlive (Function.update_of_ne hk' ..))).elim
  | tellSelf purpose j h ht' =>
    cases purpose with
    | stop => simp [holds, h, Point.holdsLock, Purpose.relieved] at ht
    | replace intervalMs =>
      -- The only one who could be was this worker itself.
      rw [MayLive, hs.inside_of_point h rfl] at hold
      obtain rfl : k = j := hold (hlive rfl)
      exact (hself k intervalMs ht' h hk).elim
  | tellOther purpose j h ht' =>
    cases purpose with
    | stop => simp [holds, h, Point.holdsLock] at ht
    | replace intervalMs =>
      have hl := hs.lock_of_point h rfl
      rw [MayLive, hs.inside_of_point h rfl] at hold
      simpa [MayLive, inside, hl, Point.MayLive] using hold (hlive rfl)
  | join purpose j h hj =>
    cases purpose with
    | stop => simp [holds, h, Point.holdsLock, Purpose.relieved] at ht
    | replace intervalMs =>
      -- The only one who could be has ended.
      rw [MayLive, hs.inside_of_point h rfl] at hold
      obtain rfl : k = j := hold (hlive rfl)
      exact (hended k hk ⟨_, hj⟩).elim
  | _ =>
    have hl := hs.lock_of_point ‹_› rfl
    rw [MayLive, hs.inside_of_point ‹_› rfl] at hold
    simp_all [MayLive, inside, Point.MayLive, Standing.MayLive]

theorem callStep : c'.Governed live' where
  alone j k hj hk := by
    have hlive_j := hlive j hj
    have hlive_k := hlive k hk
    cases h with
    | spawn intervalMs h =>
      have hnew : ∀ i, (update c.phase c.spawned .reading i = c.phase i → live i) →
          i = c.spawned := by
        intro i hi
        by_contra hne
        exact hc.nobody_of_hiring hs h (hi (Function.update_of_ne hne ..))
      rw [hnew j hlive_j, hnew k hlive_k]
    | _ => exact hc.alone j k (hlive_j rfl) (hlive_k rfl)
  mayLive _ := hc.callStep_mayLive hs h hlive hended hself

end Call

/-- Without a start that takes the worker on whose thread it runs, this is all workers. -/
theorem callStep_alive (hs : c.Sound) (hc : c.Governed fun k => (c.phase k).isAlive = true)
    (h : CallStep t c c') (hno : ¬ c.OwnRestart) :
    c'.Governed fun k => (c'.phase k).isAlive = true := by
  refine hc.callStep hs h ?_ ?_ ?_
  · intro k hk hphase
    exact hphase ▸ hk
  · exact fun k hk => Phase.not_hasEnded_of_isAlive hk
  · rintro k intervalMs rfl hpoint
    exact (hno ⟨k, intervalMs, hpoint⟩).elim

/-- A step beside the calls moves neither the thread with the lock nor anyone who may be alive. -/
theorem beside (hs : c.Sound) (hc : c.Governed live) (h : Beside c c')
    (hlive : ∀ k, live' k → live k) : c'.Governed live' where
  alone j k hj hk := hc.alone j k (hlive j hj) (hlive k hk)
  mayLive k hk := by
    rw [MayLive, h.inside_eq hs, h.standing_eq]
    exact hc.mayLive k (hlive k hk)

end Config.Governed

namespace Config.Orderly

theorem governed (hc : c.Orderly) : c.Governed fun k => (c.phase k).isAlive = true :=
  ⟨hc.alone, hc.mayLive⟩

theorem not_ownRestart (hc : c.Orderly) : ¬ c.OwnRestart := by
  rintro ⟨k, intervalMs, h⟩
  cases hc.stops k _ h

/-- The worker inside a call is alive, and only the one in charge can be. -/
theorem callStep_own (hs : c.Sound) (hc : c.Orderly) (h : CallStep (.worker k) c c') {y : Point}
    (hy : c'.point (.worker k) = some y) : y.IsOwn k := by
  cases h with
  | startInstead intervalMs j h => cases hc.stops k _ h
  | stopWorker j h hj =>
    have hlive := hc.mayLive k (Phase.isAlive_of_isServing (hs.serving k _ h))
    rw [MayLive, hs.inside_of_point h rfl, hj] at hlive
    obtain rfl : _ = y := by simpa using hy
    exact hlive.symm
  | letGo j h =>
    obtain rfl : _ = y := by simpa using hy
    have hown : j = k := hc.own k _ h
    exact hown
  | tellOther purpose j h hne =>
    obtain rfl : j = k := hc.own k _ h
    exact (hne rfl).elim
  | tellSelf purpose | join purpose =>
    obtain rfl : _ = y := by simpa using hy
    cases purpose <;> trivial
  | refuse | leave | stopped => simp at hy
  | _ =>
    obtain rfl : _ = y := by simpa using hy
    trivial

theorem callStep (hs : c.Sound) (hc : c.Orderly) (h : CallStep t c c') : c'.Orderly where
  stops k y hy := by
    by_cases hk : .worker k = t
    · subst hk
      cases hx : c.point (.worker k) with
      | none => cases h <;> simp_all
      | some x => rw [h.request_eq hx hy, hc.stops k x hx]
    · exact hc.stops k y (by rwa [h.point_of_ne hk] at hy)
  todo k x p soFar todo outcome hk := by
    have htodo := hc.todo k x p soFar todo outcome
    cases h <;> grind [Function.update_apply]
  alone := (hc.governed.callStep_alive hs h hc.not_ownRestart).alone
  mayLive := (hc.governed.callStep_alive hs h hc.not_ownRestart).mayLive
  own k y hy := by
    by_cases hk : .worker k = t
    · subst hk
      exact hc.callStep_own hs h hy
    · exact hc.own k y (by rwa [h.point_of_ne hk] at hy)

theorem beside (hs : c.Sound) (hc : c.Orderly) (h : Beside c c')
    (hstops : ∀ k x, c'.point (.worker k) = some x → x.request = .stop)
    (htodo : ∀ k x p soFar todo outcome, c'.phase k = .serving x p soFar todo outcome →
      ∀ r, Deed.ask r ∈ todo → r = .stop) : c'.Orderly where
  stops := hstops
  todo := htodo
  alone := (hc.governed.beside hs h h.isAlive).alone
  mayLive := (hc.governed.beside hs h h.isAlive).mayLive
  own j y hy := by
    rcases h.called _ y hy with hy | ⟨r, rfl⟩
    · exact hc.own j y hy
    · trivial

theorem tickStep (ha : OnlyStops asks) (hs : c.Sound) (hc : c.Orderly)
    (h : TickStep asks k c c') : c'.Orderly := by
  refine hc.beside hs h.beside ?_ ?_
  · intro j y hy
    by_cases hj : j = k
    · subst hj
      rcases h.point_cases with hp | ⟨r, x, p, soFar, todo, outcome, hphase, -, hp⟩
      · exact hc.stops j y (hp ▸ hy)
      · obtain rfl : _ = y := by simpa [hp] using hy
        exact hc.todo j x p soFar _ outcome hphase r List.mem_cons_self
    · exact hc.stops j y (by rwa [h.point_of_ne (by simpa using hj)] at hy)
  · intro j y p soFar todo outcome hj r hr
    by_cases hjk : j = k
    · subst hjk
      have htodo := hc.todo j
      cases h with
      | publish x q sofar publisher hp hphase hpub =>
        obtain ⟨-, -, -, rfl, -⟩ := by simpa using hj
        exact ha.eq_stop_of_mem_deeds hr
      | _ => grind [Function.update_apply]
    · exact hc.todo j y p soFar todo outcome (by rwa [← h.phase_of_ne hjk]) r hr

theorem begin (hs : c.Sound) (hc : c.Orderly) (h : Begin c c') : c'.Orderly := by
  refine hc.beside hs h.beside ?_ ?_
  · intro j y hy
    exact hc.stops j y (by rwa [h.point_worker] at hy)
  · intro j y p soFar todo outcome hj
    rcases h.phase_cases j with heq | ⟨-, -, hreading⟩
    · exact hc.todo j y p soFar todo outcome (heq ▸ hj)
    · cases hreading.symm.trans hj

theorem create (usage : Usage) (publishers : List Publisher) :
    (Config.create n usage publishers).Orderly where
  stops k x h := by cases h
  todo k x p soFar todo outcome h := by cases h
  alone j k h := by cases h
  mayLive k h := by cases h
  own k x h := by cases h

theorem step (ha : OnlyStops asks) (hs : c.Sound) (hc : c.Orderly) (h : Step asks c c') :
    c'.Orderly := by
  cases h with
  | act t h =>
    cases h with
    | call h => exact hc.callStep hs h
    | tick h => exact hc.tickStep ha hs h
  | begin h => exact hc.begin hs h

/-- What holds of a configuration holds of all that can become of it. -/
theorem steps (ha : OnlyStops asks) (hs : c.Sound) (hc : c.Orderly) (h : Steps asks c c') :
    c'.Orderly := by
  induction h with
  | refl => exact hc
  | tail hsteps hstep ih => exact ih.step ha (hs.steps hsteps) hstep

end Config.Orderly

theorem orderly_of_reachable (ha : OnlyStops asks) (h : Reachable asks c) : c.Orderly := by
  obtain ⟨usage, publishers, hsteps⟩ := h
  exact (Config.Orderly.create usage publishers).steps ha (.create usage publishers) hsteps

end

end Threads

end IoWatch
