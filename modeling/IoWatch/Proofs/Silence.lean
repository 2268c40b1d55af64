import IoWatch.Proofs.Deadlock

/-!
# After a stop

Where publishers ask their scheduler for nothing but stops, a stop from outside that takes the
worker in charge returns when this worker has ended, and nothing happens after it. A stop that finds
no worker in charge returns at once. The worker may be with another stop then, which is not done
with it, or it may have been stopped by one of its own publishers and still be inside this tick.

## Main definitions

* `CallsPublisher`: a step that calls a publisher
* `Config.Silent`: no publisher is called any more, and the usage stays as it is
* `Config.Settled`: the scheduler has been stopped
* `Config.StopUnderWay`: a stop has taken a worker and is not done with it
* `Config.HeedsStop`: what holds among threads of a scheduler that has been stopped

## Main results

* `Config.Settled.step`: a scheduler that has been stopped stays so, and spawns no worker
* `heedsStop_of_reachable`: who may still be alive then
* `silent_after_stop`: what can happen after a stop
-/

namespace IoWatch

namespace Threads

open Function (update)

namespace Point

/-- A start has found nobody in charge, or has taken away who was. -/
def vacates : Point → Bool
  | foundStopped _ | telling (.replace _) _ | joining (.replace _) _ | hiring _ | hired .. => true
  | _ => false

/-- A stop has found what the lock guards, and has marked it as stopped. -/
def hasStopped : Point → Bool
  | taken _ | telling .stop _ | joining .stop _ | stopping | leaving .stop _ => true
  | _ => false

/-- The worker that a stop has taken and is not done with. -/
def ending? : Point → Option Nat
  | taken k | telling .stop k | joining .stop k => some k
  | _ => none

theorem hasStopped_of_ending? {x : Point} {k : Nat} (h : x.ending? = some k) :
    x.hasStopped = true := by
  cases x with
  | taken => rfl
  | telling purpose | joining purpose =>
    cases purpose with
    | stop => rfl
    | replace => cases h
  | _ => cases h

theorem holdsLock_of_vacates {x : Point} (h : x.vacates = true) : x.holdsLock = true := by
  cases x with
  | telling purpose | joining purpose =>
    cases purpose with
    | stop => cases h
    | replace => rfl
  | foundStopped | hiring | hired => rfl
  | _ => cases h

end Point

section

variable {n : Nat} {asks : Publisher → Sample → List Request} {t : Thread n} {j k : Nat}
  {c c' : Config n}

/-- A step calls a publisher. -/
def CallsPublisher (c c' : Config n) : Prop :=
  ∃ k x p soFar, c.phase k = .publishing x p soFar ∧ (c'.phase k).isServing = true

namespace Config

variable (asks) in
/-- From here on no publisher is called, and the usage stays as it is. -/
def Silent (c : Config n) : Prop :=
  ∀ c', Steps asks c c' → c'.usage = c.usage ∧ ∀ c'', Step asks c' c'' → ¬ CallsPublisher c' c''

/-- The scheduler has been stopped. A start that finds it so takes this away, and puts it back. -/
def Settled (c : Config n) : Prop :=
  c.standing = .stopped ∨ ∃ t intervalMs, c.point t = some (.foundStopped intervalMs)

/-- A stop has taken a worker, and is not done with it. -/
def StopUnderWay (c : Config n) (k : Nat) : Prop :=
  ∃ t x, c.point t = some x ∧ x.ending? = some k

/-- What holds among threads of a scheduler that has been stopped, or is going to be. -/
structure HeedsStop (c : Config n) : Prop where
  /-- A start with nobody in charge has left nothing to be found. -/
  vacated : ∀ t x, c.point t = some x → x.vacates = true → c.standing = .created
  /-- A stop that has come so far has stopped the scheduler, -/
  settled : ∀ t x, c.point t = some x → x.hasStopped = true → c.Settled
  /-- and so has one that has returned. -/
  returned : ∀ t reply, (t, .stop, reply) ∈ c.returned → c.Settled
  /-- Who is alive then is being stopped, or has been told to end and reads no more. -/
  alive : c.Settled → ∀ k, (c.phase k).isAlive = true →
    c.StopUnderWay k ∨ c.told k = true ∧ (c.phase k).takesIn = false
  /-- Nobody is alive but the worker that a stop has taken, -/
  taken : ∀ t x k, c.point t = some x → x.ending? = some k →
    ∀ j, (c.phase j).isAlive = true → j = k
  /-- and not even this one when a stop from outside is done with it. -/
  done : ∀ i, c.point (.caller i) = some .stopping → ∀ j, (c.phase j).isAlive ≠ true

end Config

/-! ## A stop with a worker -/

/-- A stop goes on with the worker that it has taken until this has ended, or is told to end by a
stop of its own. -/
theorem CallStep.ending_cases (h : CallStep t c c') {x : Point} (hx : c.point t = some x)
    (hending : x.ending? = some k) : (∃ y, c'.point t = some y ∧ y.ending? = some k) ∨
      c'.point t = some .stopping ∧
        ((c.phase k).HasEnded ∨ t = .worker k ∧ c'.told k = true ∧ c'.phase k = c.phase k) := by
  cases h with
  | letGo j h =>
    obtain rfl := Option.some.inj (h.symm.trans hx)
    exact .inl ⟨_, Function.update_self .., hending⟩
  | tellOther purpose j h | tellSelf purpose j h | join purpose j h =>
    obtain rfl := Option.some.inj (h.symm.trans hx)
    cases purpose with
    | replace => cases hending
    | stop =>
      obtain rfl : j = k := by simpa [Point.ending?] using hending
      simp_all [Purpose.relieved, Point.ending?]
  | _ => grind [Point.ending?]

/-- It has taken the worker in charge. -/
theorem CallStep.ending_of (h : CallStep t c c') {y : Point} (hy : c'.point t = some y)
    (hending : y.ending? = some k) : (∃ x, c.point t = some x ∧ x.ending? = some k) ∨
      c.point t = some (.locked .stop) ∧ c.standing = .running k ∧ c'.phase = c.phase := by
  cases h with
  | stopWorker j h hj =>
    obtain rfl : _ = y := by simpa using hy
    obtain rfl : j = k := by simpa [Point.ending?] using hending
    exact .inr ⟨h, hj, rfl⟩
  | letGo j h =>
    obtain rfl : _ = y := by simpa using hy
    exact .inl ⟨_, h, hending⟩
  | tellOther purpose j h =>
    obtain rfl : _ = y := by simpa using hy
    cases purpose with
    | replace => cases hending
    | stop => exact .inl ⟨_, h, hending⟩
  | tellSelf purpose | join purpose =>
    obtain rfl : _ = y := by simpa using hy
    cases purpose <;> cases hending
  | refuse | leave | stopped => simp at hy
  | _ =>
    obtain rfl : _ = y := by simpa using hy
    cases hending

/-- It is done when this worker has ended, or was its own. -/
theorem CallStep.stopping_of (h : CallStep t c c') (hy : c'.point t = some .stopping) :
    ∃ x k, c.point t = some x ∧ x.ending? = some k ∧ ((c.phase k).HasEnded ∨ t = .worker k) := by
  cases h with
  | tellSelf purpose j h hj =>
    cases purpose with
    | stop => exact ⟨_, j, h, rfl, .inr hj⟩
    | replace => simp [Purpose.relieved] at hy
  | join purpose j h hended =>
    cases purpose with
    | stop => exact ⟨_, j, h, rfl, .inl ⟨_, hended⟩⟩
    | replace => simp [Purpose.relieved] at hy
  | _ => simp at hy

/-! ## A scheduler that has been stopped -/

/-- The thread that has found a scheduler to be stopped has the lock. -/
theorem Config.Settled.standing_eq (hs : c.Sound) (h : c.Settled) {x : Point}
    (hx : c.point t = some x) (hlock : x.holdsLock = true) :
    c.standing = .stopped ∨ ∃ intervalMs, x = .foundStopped intervalMs := by
  refine h.imp_right ?_
  rintro ⟨u, intervalMs, hu⟩
  obtain rfl : t = u :=
    Option.some.inj ((hs.lock_of_point hx hlock).symm.trans (hs.lock_of_point hu rfl))
  exact ⟨intervalMs, Option.some.inj (hx.symm.trans hu)⟩

theorem Config.HeedsStop.not_settled (hs : c.Sound) (hc : c.HeedsStop) {x : Point}
    (hx : c.point t = some x) (hvacates : x.vacates = true)
    (hne : ∀ intervalMs, x ≠ .foundStopped intervalMs) : ¬ c.Settled := by
  intro h
  rcases h.standing_eq hs hx (Point.holdsLock_of_vacates hvacates) with hstopped | ⟨i, hi⟩
  · cases (hc.vacated t x hx hvacates).symm.trans hstopped
  · exact hne i hi

/-- While another thread has the lock, a call goes on without it. -/
theorem CallStep.unguarded_of_locked (hs : c.Sound) (h : CallStep t c c') {u : Thread n}
    (hlock : c.lock = some u) (hu : u ≠ t) :
    c'.lock = c.lock ∧ c'.standing = c.standing ∧ c'.phase = c.phase := by
  have hnot : c.holds t = false := by
    rw [← Bool.not_eq_true, ← hs.holder t, hlock]
    simpa using hu
  rcases h.lock_cases with ⟨-, hkept⟩ | ⟨hfree, -⟩ | ⟨-, hheld, -⟩
  · exact h.unguarded hnot (hkept.trans hnot)
  · cases hlock.symm.trans hfree
  · cases hnot.symm.trans hheld

/-- A scheduler that has been stopped stays so. -/
theorem CallStep.settled (hs : c.Sound) (hc : c.HeedsStop) (h : CallStep t c c')
    (hsettled : c.Settled) : c'.Settled ∧ c'.spawned = c.spawned ∧ c'.phase = c.phase := by
  have hkept : c'.standing = c.standing → (∀ i, c.point t ≠ some (.foundStopped i)) →
      c'.Settled := by
    intro hstanding hne
    rcases hsettled with hstopped | ⟨u, intervalMs, hu⟩
    · exact .inl (hstanding.trans hstopped)
    · refine .inr ⟨u, intervalMs, (h.point_of_ne ?_).trans hu⟩
      rintro rfl
      exact hne intervalMs hu
  cases h with
  | startInstead intervalMs k h hk =>
    -- A start that has the lock would have found it stopped.
    rcases hsettled.standing_eq hs h rfl with hstopped | ⟨i, hi⟩
    · cases hk.symm.trans hstopped
    · cases hi
  | startTooLate intervalMs => exact ⟨.inr ⟨t, intervalMs, Function.update_self ..⟩, rfl, rfl⟩
  | putBack | stopWorker | stopNobody => exact ⟨.inl rfl, rfl, rfl⟩
  | spawn intervalMs h | install intervalMs k h =>
    -- A start that has come so far has the lock, and has found it not to be stopped.
    exact (hc.not_settled hs h rfl (by simp) hsettled).elim
  | _ => exact ⟨hkept rfl (by intro i hi; simp_all), rfl, rfl⟩

theorem Beside.settled_iff (h : Beside c c') : c'.Settled ↔ c.Settled := by
  refine or_congr (by rw [h.standing_eq]) (exists_congr fun u => exists_congr fun intervalMs => ?_)
  refine ⟨fun hu => ?_, fun hu => h.point_eq u _ hu⟩
  rcases h.called u _ hu with hu | ⟨r, hr⟩
  · exact hu
  · cases hr

/-! ## Who is alive then -/

namespace Config.HeedsStop

section Call

variable (hs : c.Sound) (ho : c.Orderly) (hc : c.HeedsStop) (h : CallStep t c c')
include hs hc h

/-- A start finds or leaves nobody in charge first, and then goes on. It has the lock, so no other
call touches what this guards. -/
theorem callStep_vacated {x : Point} {u : Thread n} (hx : c'.point u = some x)
    (hvacates : x.vacates = true) : c'.standing = .created := by
  by_cases hu : u = t
  · subst hu
    have hkept : ∀ y, c.point u = some y → y.vacates = true → c.standing = .created :=
      hc.vacated u
    cases h with
    | startAnew intervalMs h hs => exact hs
    | startInstead | startTooLate => rfl
    | tellOther purpose k h | tellSelf purpose k h | join purpose k h =>
      obtain rfl : _ = x := by simpa using hx
      cases purpose with
      | stop => cases hvacates
      | replace => exact hkept _ h rfl
    | spawn intervalMs h => exact hkept _ h rfl
    | refuse | leave | stopped => simp at hx
    | _ =>
      obtain rfl : _ = x := by simpa using hx
      cases hvacates
  · rw [h.point_of_ne hu] at hx
    have hlock := hs.lock_of_point hx (Point.holdsLock_of_vacates hvacates)
    rw [(h.unguarded_of_locked hs hlock hu).2.1]
    exact hc.vacated u x hx hvacates

/-- A stop marks what the lock guards first, and then goes on. -/
theorem callStep_settled {x : Point} {u : Thread n} (hx : c'.point u = some x)
    (hstopped : x.hasStopped = true) : c'.Settled := by
  by_cases hu : u = t
  · subst hu
    have hkept : ∀ y, c.point u = some y → y.hasStopped = true → c'.Settled :=
      fun y hy hstopped => (h.settled hs hc (hc.settled u y hy hstopped)).1
    cases h with
    | stopWorker | stopNobody => exact .inl rfl
    | letGo k h => exact hkept _ h rfl
    | tellOther purpose k h | tellSelf purpose k h | join purpose k h =>
      obtain rfl : _ = x := by simpa using hx
      cases purpose with
      | stop => exact hkept _ h rfl
      | replace => cases hstopped
    | refuse | leave | stopped => simp at hx
    | _ =>
      obtain rfl : _ = x := by simpa using hx
      cases hstopped
  · exact (h.settled hs hc (hc.settled u x (by rwa [h.point_of_ne hu] at hx) hstopped)).1

/-- A stop returns from two points, and has stopped the scheduler at both. -/
theorem callStep_returned {u : Thread n} {reply : Reply}
    (hmem : (u, .stop, reply) ∈ c'.returned) : c'.Settled := by
  have hkept : ∀ y, c.point t = some y → y.hasStopped = true → c'.Settled :=
    fun y hy hstopped => (h.settled hs hc (hc.settled t y hy hstopped)).1
  have hearlier : (u, .stop, reply) ∈ c.returned → c'.Settled :=
    fun hmem => (h.settled hs hc (hc.returned u reply hmem)).1
  cases h with
  | refuse h =>
    exact hearlier (by simpa using hmem)
  | leave r reply' h =>
    rcases List.mem_append.mp hmem with hmem | hmem
    · exact hearlier hmem
    · obtain ⟨-, rfl, -⟩ : u = t ∧ .stop = r ∧ reply = reply' := by simpa using hmem
      exact hkept _ h rfl
  | stopped h => exact hkept _ h rfl
  | _ => exact hearlier hmem

include ho

omit hc in
/-- A scheduler becomes stopped by a stop that finds no worker alive but the one it takes. -/
theorem settled_or (hsettled : c'.Settled) : c.Settled ∨
    ∀ k, (c'.phase k).isAlive = true → c'.point t = some (.taken k) := by
  -- Other steps leave as it is what tells that it is stopped.
  have hkept : ∀ u i, c'.point u = some (.foundStopped i) →
      c'.point t ≠ some (.foundStopped i) → c.Settled := by
    intro u i hu ht
    refine .inr ⟨u, i, (h.point_of_ne ?_).symm.trans hu⟩
    rintro rfl
    exact ht hu
  cases h with
  | stopWorker j h hj =>
    refine .inr fun k hk => ?_
    have hlive := ho.mayLive k hk
    rw [Config.MayLive, hs.inside_of_point h rfl, hj] at hlive
    obtain rfl : k = j := hlive
    exact Function.update_self ..
  | stopNobody h hnobody =>
    -- Nobody is in charge, and the stop has the lock, so nobody is alive.
    cases hstanding : c.standing with
    | stopped => exact .inl (.inl hstanding)
    | running j => exact (hnobody j hstanding).elim
    | created =>
      refine .inr fun k hk => ?_
      have hlive := ho.mayLive k hk
      rw [Config.MayLive, hs.inside_of_point h rfl, hstanding] at hlive
      exact hlive.elim
  | startTooLate intervalMs h hstopped => exact .inl (.inl hstopped)
  | putBack intervalMs h => exact .inl (.inr ⟨t, intervalMs, h⟩)
  | startInstead intervalMs j h | install intervalMs j h =>
    rcases hsettled with hstopped | ⟨u, i, hu⟩
    · cases hstopped
    · exact .inl (hkept u i hu (by simp))
  | tellOther purpose j h | tellSelf purpose j h | join purpose j h =>
    rcases hsettled with hstopped | ⟨u, i, hu⟩
    · exact .inl (.inl hstopped)
    · exact .inl (hkept u i hu (by cases purpose <;> simp [Purpose.relieved]))
  | _ =>
    rcases hsettled with hstopped | ⟨u, i, hu⟩
    · exact .inl (.inl hstopped)
    · exact .inl (hkept u i hu (by simp))

/-- A worker that is alive behind a stop is the one that this stop has taken, or has made a stop
itself and reads no more. -/
theorem callStep_alive (hsettled : c'.Settled) (hk : (c'.phase k).isAlive = true) :
    c'.StopUnderWay k ∨ c'.told k = true ∧ (c'.phase k).takesIn = false := by
  rcases settled_or hs ho h hsettled with hsettled | htaken
  · obtain ⟨-, -, hphase⟩ := h.settled hs hc hsettled
    rw [hphase] at hk
    rcases hc.alive hsettled k hk with ⟨u, x, hx, hending⟩ | ⟨htold, htakes⟩
    · by_cases hu : u = t
      · subst hu
        rcases h.ending_cases hx hending with ⟨y, hy, hending'⟩ | ⟨-, hended | ⟨rfl, htold, -⟩⟩
        · exact .inl ⟨u, y, hy, hending'⟩
        · exact absurd hended (Phase.not_hasEnded_of_isAlive hk)
        · exact .inr ⟨htold, by rw [hphase]; exact Phase.takesIn_of_isServing (hs.serving k x hx)⟩
      · exact .inl ⟨u, x, (h.point_of_ne hu).trans hx, hending⟩
    · exact .inr ⟨h.told_mono htold, by rwa [hphase]⟩
  · exact .inl ⟨t, _, htaken k hk, rfl⟩

theorem callStep_taken {x : Point} {u : Thread n} (hx : c'.point u = some x)
    (hending : x.ending? = some k) (hj : (c'.phase j).isAlive = true) : j = k := by
  by_cases hu : u = t
  · subst hu
    rcases h.ending_of hx hending with ⟨y, hy, hending'⟩ | ⟨hlocked, hstanding, hphase⟩
    · have hsettled := hc.settled u y hy (Point.hasStopped_of_ending? hending')
      exact hc.taken u y k hy hending' j ((h.settled hs hc hsettled).2.2 ▸ hj)
    · have hlive := ho.mayLive j (hphase ▸ hj)
      rw [Config.MayLive, hs.inside_of_point hlocked rfl, hstanding] at hlive
      exact hlive
  · rw [h.point_of_ne hu] at hx
    have hsettled := hc.settled u x hx (Point.hasStopped_of_ending? hending)
    exact hc.taken u x k hx hending j ((h.settled hs hc hsettled).2.2 ▸ hj)

omit ho in
theorem callStep_done {i : Fin n} (hx : c'.point (.caller i) = some .stopping) :
    (c'.phase j).isAlive ≠ true := by
  intro hj
  by_cases ht : .caller i = t
  · subst ht
    obtain ⟨y, k, hy, hending, hended | hworker⟩ := h.stopping_of hx
    · have hsettled := hc.settled _ y hy (Point.hasStopped_of_ending? hending)
      rw [(h.settled hs hc hsettled).2.2] at hj
      obtain rfl := hc.taken _ y k hy hending j hj
      exact absurd hended (Phase.not_hasEnded_of_isAlive hj)
    · cases hworker
  · rw [h.point_of_ne ht] at hx
    have hsettled := hc.settled _ _ hx rfl
    rw [(h.settled hs hc hsettled).2.2] at hj
    exact hc.done i hx j hj

theorem callStep : c'.HeedsStop where
  vacated _ _ := callStep_vacated hs hc h
  settled _ _ := callStep_settled hs hc h
  returned _ _ := callStep_returned hs hc h
  alive hsettled _ := callStep_alive hs ho hc h hsettled
  taken _ _ _ hx hending _ := callStep_taken hs ho hc h hx hending
  done _ hx _ := callStep_done hs hc h hx

end Call

theorem beside (hs : c.Sound) (hc : c.HeedsStop) (hstep : Step asks c c') (h : Beside c c')
    (hreturned : c'.returned = c.returned) : c'.HeedsStop where
  vacated u x hx hvacates := by
    rw [h.standing_eq]
    rcases h.called u x hx with hx | ⟨r, rfl⟩
    · exact hc.vacated u x hx hvacates
    · cases hvacates
  settled u x hx hstopped := by
    rw [h.settled_iff]
    rcases h.called u x hx with hx | ⟨r, rfl⟩
    · exact hc.settled u x hx hstopped
    · cases hstopped
  returned u reply hmem := by
    rw [h.settled_iff]
    exact hc.returned u reply (hreturned ▸ hmem)
  alive hsettled k hk := by
    rw [h.settled_iff] at hsettled
    rcases hc.alive hsettled k (h.isAlive k hk) with ⟨u, x, hx, hending⟩ | ⟨htold, htakes⟩
    · exact .inl ⟨u, x, h.point_eq u x hx, hending⟩
    · exact .inr ⟨hstep.told_mono htold, hstep.takesIn_eq_false hs htold htakes⟩
  taken u x k hx hending j hj := by
    rcases h.called u x hx with hx | ⟨r, rfl⟩
    · exact hc.taken u x k hx hending j (h.isAlive j hj)
    · cases hending
  done i hx j hj := by
    rcases h.called _ _ hx with hx | ⟨r, hr⟩
    · exact hc.done i hx j (h.isAlive j hj)
    · cases hr

theorem create (usage : Usage) (publishers : List Publisher) :
    (Config.create n usage publishers).HeedsStop where
  vacated u x h := by cases h
  settled u x h := by cases h
  returned u reply h := by cases h
  alive hsettled k h := by cases h
  taken u x k h := by cases h
  done i h := by cases h

theorem step (hs : c.Sound) (ho : c.Orderly) (hc : c.HeedsStop) (h : Step asks c c') :
    c'.HeedsStop := by
  rcases h.call_or_beside with ⟨t, hcall⟩ | ⟨hbeside, hreturned⟩
  · exact hc.callStep hs ho hcall
  · exact hc.beside hs h hbeside hreturned

end Config.HeedsStop

theorem heedsStop_of_reachable (ha : OnlyStops asks) (h : Reachable asks c) : c.HeedsStop := by
  obtain ⟨usage, publishers, hsteps⟩ := h
  induction hsteps with
  | refl => exact .create usage publishers
  | tail hsteps hstep ih =>
    have hreachable : Reachable asks _ := ⟨usage, publishers, hsteps⟩
    exact ih.step (sound_of_reachable hreachable) (orderly_of_reachable ha hreachable) hstep

/-! ## What can still happen -/

/-- A worker that has been told to end while it waits does nothing else. -/
theorem Step.waiting_or_ended (hs : c.Sound) (h : Step asks c c') (htold : c.told k = true)
    (hk : c.phase k = .waiting) : c'.phase k = .waiting ∨ (c'.phase k).HasEnded := by
  have htakes := h.takesIn_eq_false hs htold (by rw [hk]; rfl)
  cases h with
  | act t h =>
    cases h with
    | call h =>
      rcases h.phase_cases k with heq | ⟨-, hreading⟩
      · exact .inl (heq.trans hk)
      · rw [hreading] at htakes
        cases htakes
    | @tick j _ _ h =>
      by_cases hj : k = j
      · subst hj
        refine .inr ?_
        cases h with
        | exit => exact ⟨_, Function.update_self ..⟩
        | _ => simp_all
      · exact .inl ((h.phase_of_ne hj).trans hk)
  | begin h =>
    rcases h.phase_cases k with heq | ⟨-, -, hreading⟩
    · exact .inl (heq.trans hk)
    · rw [hreading] at htakes
      cases htakes

section Stopped

variable (ha : OnlyStops asks) (hc : Reachable asks c) (hsettled : c.Settled)
include ha hc hsettled

/-- **A scheduler that has been stopped stays so**, and spawns no worker. -/
theorem Config.Settled.step (h : Step asks c c') : c'.Settled ∧ c'.spawned = c.spawned ∧
    ∀ k, (c'.phase k).isAlive = true → (c.phase k).isAlive = true := by
  rcases h.call_or_beside with ⟨t, h⟩ | ⟨h, -⟩
  · obtain ⟨hsettled', hspawned, hphase⟩ :=
      h.settled (sound_of_reachable hc) (heedsStop_of_reachable ha hc) hsettled
    exact ⟨hsettled', hspawned, fun k hk => hphase ▸ hk⟩
  · exact ⟨h.settled_iff.mpr hsettled, h.spawned_eq, h.isAlive⟩

theorem Config.Settled.steps (h : Steps asks c c') : c'.Settled ∧ c'.spawned = c.spawned := by
  induction h with
  | refl => exact ⟨hsettled, rfl⟩
  | tail hsteps hstep ih =>
    obtain ⟨hsettled', hspawned, -⟩ := ih.1.step ha (hc.steps hsteps) hstep
    exact ⟨hsettled', hspawned.trans ih.2⟩

/-- Where everybody alive has been told to end and reads no more, the usage stays as it is. -/
theorem Config.Settled.usage_eq
    (hall : ∀ k, (c.phase k).isAlive = true → c.told k = true ∧ (c.phase k).takesIn = false)
    (h : Steps asks c c') : c'.usage = c.usage := by
  -- The induction carries along who is alive, and that nobody of them reads.
  suffices c'.usage = c.usage ∧ c'.Settled ∧
      ∀ k, (c'.phase k).isAlive = true → c'.told k = true ∧ (c'.phase k).takesIn = false from this.1
  induction h with
  | refl => exact ⟨rfl, hsettled, hall⟩
  | @tail c₁ c₂ hsteps hstep ih =>
    obtain ⟨husage, hsettled₁, hall₁⟩ := ih
    have hc₁ := hc.steps hsteps
    have hs₁ := sound_of_reachable hc₁
    obtain ⟨hsettled₂, -, halive⟩ := hsettled₁.step ha hc₁ hstep
    refine ⟨?_, hsettled₂, fun k hk => ?_⟩
    · rcases hstep.usage_cases hs₁ with ⟨k, x, hk, -⟩ | ⟨husage', -⟩
      · have htakes := (hall₁ k (by rw [hk]; rfl)).2
        rw [hk] at htakes
        cases htakes
      · exact husage'.trans husage
    · obtain ⟨htold, htakes⟩ := hall₁ k (halive k hk)
      exact ⟨hstep.told_mono htold, hstep.takesIn_eq_false hs₁ htold htakes⟩

/-- Where everybody alive has been told to end and waits, nothing more is seen. -/
theorem Config.Settled.silent
    (hall : ∀ k, (c.phase k).isAlive = true → c.told k = true ∧ c.phase k = .waiting) :
    c.Silent asks := by
  intro c' h
  refine ⟨hsettled.usage_eq ha hc (fun k hk => ?_) h, ?_⟩
  · obtain ⟨htold, hwaiting⟩ := hall k hk
    exact ⟨htold, by rw [hwaiting]; rfl⟩
  · have hwait : c'.Settled ∧
        ∀ k, (c'.phase k).isAlive = true → c'.told k = true ∧ c'.phase k = .waiting := by
      induction h with
      | refl => exact ⟨hsettled, hall⟩
      | @tail c₁ c₂ hsteps hstep ih =>
        obtain ⟨hsettled₁, hall₁⟩ := ih
        have hc₁ := hc.steps hsteps
        obtain ⟨hsettled₂, -, halive⟩ := hsettled₁.step ha hc₁ hstep
        refine ⟨hsettled₂, fun k hk => ?_⟩
        obtain ⟨htold, hwaiting⟩ := hall₁ k (halive k hk)
        refine ⟨hstep.told_mono htold, ?_⟩
        rcases hstep.waiting_or_ended (sound_of_reachable hc₁) htold hwaiting with heq | hended
        · exact heq
        · exact absurd hended (Phase.not_hasEnded_of_isAlive hk)
    rintro c'' - ⟨k, x, p, soFar, hpublishing, -⟩
    have hwaiting := (hwait.2 k (by rw [hpublishing]; rfl)).2
    rw [hpublishing] at hwaiting
    cases hwaiting

/-- Otherwise one worker is alive that a stop has taken, or that goes on with its tick. -/
theorem Config.Settled.silent_or : c.Silent asks ∨
    ∃ k, (∀ j, (c.phase j).isAlive = true ↔ j = k) ∧
      (c.StopUnderWay k ∨
        c.told k = true ∧ (c.phase k).inTick = true ∧ (c.phase k).takesIn = false ∧
          ∀ c', Steps asks c c' → c'.usage = c.usage) := by
  by_cases hsomebody : ∃ k, (c.phase k).isAlive = true
  · obtain ⟨k, hk⟩ := hsomebody
    have honly : ∀ j, (c.phase j).isAlive = true ↔ j = k := by
      intro j
      exact ⟨fun hj => (orderly_of_reachable ha hc).alone j k hj hk, fun hj => hj ▸ hk⟩
    rcases (heedsStop_of_reachable ha hc).alive hsettled k hk with hunder | ⟨htold, htakes⟩
    · exact .inr ⟨k, honly, .inl hunder⟩
    · by_cases hwaiting : c.phase k = .waiting
      · left
        apply hsettled.silent ha hc
        intro j hj
        obtain rfl := (honly j).mp hj
        exact ⟨htold, hwaiting⟩
      · refine .inr ⟨k, honly, .inr ⟨htold, ?_, htakes, ?_⟩⟩
        · cases hphase : c.phase k <;> simp_all [Phase.inTick, Phase.isAlive]
        · intro c' hsteps
          refine hsettled.usage_eq ha hc (fun j hj => ?_) hsteps
          obtain rfl := (honly j).mp hj
          exact ⟨htold, htakes⟩
  · left
    apply hsettled.silent ha hc
    intro j hj
    exact (hsomebody ⟨j, hj⟩).elim

end Stopped

/-- A stop from outside that has taken a worker is done when nobody is alive. Only its own steps
move it on, and the last of them leaves nobody alive. -/
theorem ending_or_nobody {i : Fin n} {x : Point} (ha : OnlyStops asks) (hc : Reachable asks c)
    (hx : c.point (.caller i) = some x) (hending : x.ending? = some k) (h : Steps asks c c') :
    (∃ y, c'.point (.caller i) = some y ∧ y.ending? = some k) ∨
      c'.Settled ∧ ∀ j, (c'.phase j).isAlive ≠ true := by
  induction h with
  | refl => exact .inl ⟨x, hx, hending⟩
  | @tail c₁ c₂ hsteps hstep ih =>
    have hc₁ := hc.steps hsteps
    have hheeds₂ := heedsStop_of_reachable ha (hc₁.step hstep)
    rcases ih with ⟨y, hy, hending'⟩ | ⟨hsettled, hnobody⟩
    · rcases hstep.call_or_beside with ⟨t, h⟩ | ⟨h, -⟩
      · by_cases ht : .caller i = t
        · subst ht
          rcases h.ending_cases hy hending' with hgoes | ⟨hstopping, -⟩
          · exact .inl hgoes
          · exact .inr ⟨hheeds₂.settled _ _ hstopping rfl, hheeds₂.done i hstopping⟩
        · exact .inl ⟨y, (h.point_of_ne ht).trans hy, hending'⟩
      · exact .inl ⟨y, h.point_eq _ y hy, hending'⟩
    · obtain ⟨hsettled', -, halive⟩ := hsettled.step ha hc₁ hstep
      exact .inr ⟨hsettled', fun j hj => hnobody j (halive j hj)⟩

/-! ## Ways of a stop -/

variable (asks) in
/-- A stop that finds the scheduler stopped returns at once, whatever its worker does. -/
theorem exists_stop_returned (i : Fin n) (hlock : c.lock = none) (hstopped : c.standing = .stopped)
    (hi : c.point (.caller i) = none) :
    ∃ c', Steps asks c c' ∧ (.caller i, .stop, .done) ∈ c'.returned ∧ c'.phase = c.phase ∧
      c'.usage = c.usage ∧ c'.publishers = c.publishers ∧
      ∀ u, u ≠ .caller i → c'.point u = c.point u := by
  refine ⟨?later, ?run, ?returned, ?unchanged⟩
  case run =>
    refine .head (.begin (.call i .stop hi)) ?_
    refine .head (.act (.caller i) (.call (.acquire .stop (Function.update_self ..)
      (by simp) hlock))) ?_
    refine .head (.act (.caller i) (.call (.stopNobody (Function.update_self ..)
      (by simp [hstopped])))) ?_
    refine .head (.act (.caller i) (.call (.leave .stop .done (Function.update_self ..)))) ?_
    exact .refl
  case returned => simp
  case unchanged =>
    refine ⟨rfl, rfl, rfl, fun u hu => ?_⟩
    simp [hu]

variable (asks) in
/-- A stop that has taken a worker returns when the tick of this worker is over. -/
theorem exists_stop_of_taken {i : Fin n} (h : c.point (.caller i) = some (.taken k))
    (hc : c.point (.worker k) = none) (hk : c.phase k = .reading) :
    ∃ c', Steps asks c c' ∧ c'.point (.caller i) = none ∧
      (.caller i, .stop, .done) ∈ c'.returned := by
  refine ⟨?later, ?run, ?facts⟩
  case run =>
    refine .head (.act (.caller i) (.call (.letGo k h))) ?_
    refine .head (.act (.caller i) (.call (.tellOther .stop k (Function.update_self ..)
      (by simp)))) ?_
    refine .head (.act (.worker k) (.tick (.readBroken .broken (by simp [hc]) hk rfl))) ?_
    refine .head (.act (.worker k) (.tick (.exit (by simp [hc])
      (Function.update_self ..) (Function.update_self ..)))) ?_
    refine .head (.act (.caller i) (.call (.join .stop k (Function.update_self ..)
      (Function.update_self ..)))) ?_
    refine .head (.act (.caller i) (.call (.stopped (Function.update_self ..)))) ?_
    exact .refl
  case facts => exact ⟨Function.update_self .., by simp⟩

variable (asks) in
/-- A worker that reads can take any sample in, and hand it to the first publisher. -/
theorem exists_callsPublisher_of_reading (hc : c.point (.worker k) = none)
    (hk : c.phase k = .reading) (x : Sample) (hx : x.isUnreadable = false) {publisher : Publisher}
    (hpublisher : c.publishers[0]? = some publisher) :
    ∃ c₁ c₂, Steps asks c c₁ ∧ c₁.usage = c.usage.update x ∧ Step asks c₁ c₂ ∧
      CallsPublisher c₁ c₂ := by
  have htaken : ∃ c₁, Steps asks c c₁ ∧ c₁.usage = c.usage.update x ∧
      c₁.point (.worker k) = none ∧ c₁.phase k = .publishing x 0 .published ∧
      c₁.publishers[0]? = some publisher := by
    refine ⟨?later, ?run, ?facts⟩
    case run =>
      refine .head (.act (.worker k) (.tick (.readSample (.sample x) ⟨x, []⟩ hc hk rfl hx))) ?_
      refine .head (.act (.worker k) (.tick (.takeIn x hc (Function.update_self ..)))) ?_
      exact .refl
    case facts => exact ⟨rfl, hc, Function.update_self .., hpublisher⟩
  obtain ⟨c₁, hsteps, husage, hpoint, hphase, hpublisher₁⟩ := htaken
  refine ⟨c₁, _, hsteps, husage, .act _ (.tick (.publish x 0 .published publisher hpoint hphase
    hpublisher₁)), k, x, 0, .published, hphase, ?_⟩
  simp [Phase.isServing]

end

/-- **After a stop.** Let publishers ask for nothing but stops, and take whatever can become of a
new scheduler. When a stop from outside that has taken a worker returns, nothing happens any more:
no publisher is called, and the usage stays as it is. When any stop from outside has returned, no
worker is spawned any more; and nothing happens any more, unless one worker is alive that some stop
has taken and is not done with, or that has been stopped from inside the tick that it is in. In the
latter case the usage stays as it is. -/
theorem silent_after_stop {n : Nat} {asks : Publisher → Sample → List Request} {c : Config n}
    (ha : OnlyStops asks) (hc : Reachable asks c) (i : Fin n) :
    (∀ k, c.point (.caller i) = some (.taken k) →
      ∀ c', Steps asks c c' → c'.point (.caller i) = none → c'.Silent asks) ∧
    ∀ reply, (.caller i, .stop, reply) ∈ c.returned →
      (∀ c', Steps asks c c' → c'.spawned = c.spawned) ∧
      (c.Silent asks ∨ ∃ k, (∀ j, (c.phase j).isAlive = true ↔ j = k) ∧
        (c.StopUnderWay k ∨
          c.told k = true ∧ (c.phase k).inTick = true ∧ (c.phase k).takesIn = false ∧
            ∀ c', Steps asks c c' → c'.usage = c.usage)) := by
  constructor
  · intro k hk c' hsteps hnone
    rcases ending_or_nobody ha hc hk rfl hsteps with ⟨y, hy, -⟩ | ⟨hsettled, hnobody⟩
    · cases hnone.symm.trans hy
    · exact hsettled.silent ha (hc.steps hsteps) fun j hj => (hnobody j hj).elim
  · intro reply hmem
    have hsettled := (heedsStop_of_reachable ha hc).returned _ reply hmem
    exact ⟨fun c' hsteps => (hsettled.steps ha hc hsteps).2, hsettled.silent_or ha hc⟩

/-- A scheduler with a worker that reads, and a stop that has taken this worker and let the lock
go. -/
theorem reachable_stop_underway :
    ∃ c : Config 2, Steps (fun _ _ => []) (.create 2 (.start 0) [.rateLog]) c ∧
      c.lock = none ∧ c.standing = .stopped ∧ c.point (.caller 1) = none ∧
      c.point (.worker 0) = none ∧ c.phase 0 = .reading ∧ c.usage = .start 0 ∧
      c.publishers = [.rateLog] := by
  let caller : Thread 2 := .caller 0
  refine ⟨?later, ?run, ?facts⟩
  case run =>
    refine .head (.begin (.call 0 (.start 10) rfl)) ?_
    refine .head (.act caller (.call (.acquire (.start 10) rfl (by decide) rfl))) ?_
    refine .head (.act caller (.call (.startAnew 10 rfl rfl))) ?_
    refine .head (.act caller (.call (.spawn 10 rfl))) ?_
    refine .head (.act caller (.call (.install 10 0 rfl))) ?_
    refine .head (.act caller (.call (.leave (.start 10) .done rfl))) ?_
    refine .head (.begin (.call 0 .stop rfl)) ?_
    refine .head (.act caller (.call (.acquire .stop rfl (by decide) rfl))) ?_
    refine .head (.act caller (.call (.stopWorker 0 rfl rfl))) ?_
    refine .head (.act caller (.call (.letGo 0 rfl))) ?_
    exact .refl
  case facts => exact ⟨rfl, rfl, rfl, rfl, rfl, rfl, rfl⟩

/-- A stop from outside has returned, and later the window changes and a publisher is called. -/
theorem not_silent_after_stop :
    ∃ c : Config 2, Reachable (fun _ _ => []) c ∧ (.caller 1, .stop, .done) ∈ c.returned ∧
      ∃ c₁ c₂, Steps (fun _ _ => []) c c₁ ∧ c₁.usage.window ≠ c.usage.window ∧
        Step (fun _ _ => []) c₁ c₂ ∧ CallsPublisher c₁ c₂ := by
  obtain ⟨c, hc, hlock, hstopped, hidle, hworker, hreading, husage, hpublishers⟩ :=
    reachable_stop_underway
  obtain ⟨c', hc', hreturned, hphase', husage', hpublishers', hpoint'⟩ :=
    exists_stop_returned (fun _ _ => []) 1 hlock hstopped hidle
  obtain ⟨c₁, c₂, hc₁, husage₁, hstep, hcalls⟩ :=
    exists_callsPublisher_of_reading (fun _ _ => []) ((hpoint' _ (by simp)).trans hworker)
      ((congrFun hphase' 0).trans hreading) ⟨1, 1, 1⟩ rfl (by rw [hpublishers', hpublishers]; rfl)
  refine ⟨c', ⟨_, _, hc.trans hc'⟩, hreturned, c₁, c₂, hc₁, ?_, hstep, hcalls⟩
  rw [husage₁, husage', husage]
  decide

/-- A stop takes a worker inside its tick, waits for it and returns. -/
theorem silent_after_stop_of_worker :
    ∃ c c' : Config 1, c.point (.caller 0) = some (.taken 0) ∧ Steps (fun _ _ => []) c c' ∧
      c'.point (.caller 0) = none ∧ (.caller 0, .stop, .done) ∈ c'.returned ∧
      c'.Silent (fun _ _ => []) ∧ ∀ d, Steps (fun _ _ => []) c' d → d.spawned = c'.spawned := by
  have ha : OnlyStops fun _ _ => [] := fun _ _ r hr => by cases hr
  let caller : Thread 1 := .caller 0
  let worker : Thread 1 := .worker 0
  have htaken : ∃ c : Config 1, Steps (fun _ _ => []) (.create 1 (.start 0) [.rateLog]) c ∧
      c.point caller = some (.taken 0) ∧ c.point worker = none ∧ c.phase 0 = .reading := by
    refine ⟨?later, ?run, ?facts⟩
    case run =>
      refine .head (.begin (.call 0 (.start 10) rfl)) ?_
      refine .head (.act caller (.call (.acquire (.start 10) rfl (by decide) rfl))) ?_
      refine .head (.act caller (.call (.startAnew 10 rfl rfl))) ?_
      refine .head (.act caller (.call (.spawn 10 rfl))) ?_
      refine .head (.act caller (.call (.install 10 0 rfl))) ?_
      refine .head (.act caller (.call (.leave (.start 10) .done rfl))) ?_
      refine .head (.begin (.call 0 .stop rfl)) ?_
      refine .head (.act caller (.call (.acquire .stop rfl (by decide) rfl))) ?_
      refine .head (.act caller (.call (.stopWorker 0 rfl rfl))) ?_
      exact .refl
    case facts => exact ⟨rfl, rfl, rfl⟩
  obtain ⟨c, hsteps, hpoint, hworker, hreading⟩ := htaken
  obtain ⟨c', hsteps', hnone, hmem⟩ := exists_stop_of_taken (fun _ _ => []) hpoint hworker hreading
  have hc : Reachable (fun _ _ => []) c := ⟨_, _, hsteps⟩
  obtain ⟨hsilent, -⟩ := silent_after_stop ha hc 0
  obtain ⟨-, hspawned⟩ := silent_after_stop ha (hc.steps hsteps') 0
  exact ⟨c, c', hpoint, hsteps', hnone, hmem, hsilent 0 hpoint c' hsteps' hnone,
    (hspawned .done hmem).1⟩

end Threads

end IoWatch
