import IoWatch.Dashboard.Loop
import IoWatch.Proofs.Watching

/-!
# What the dashboard loop shows

The loop goes through the turns of its script up to the first one that ends it. In front of each of
them it shows the dashboard as its ticks so far have left it. A tick comes behind every turn that
does not end the loop and after which the refresh period has passed, whatever else has happened.

## Main definitions

* `Happening.Ends`: what waiting ends with ends the loop
* `Turn.steps`: what a turn does to the dashboard and its usage
* `Usage.fed`, `Usage.ticked`: the usage after the first turns, and what their ticks have seen
* `Brings`: a turn ends the loop, if the loop gets there

## Main results

* `ending?_eq_some_iff`: which happenings end the loop
* `Usage.ticked_succ`: which turns bring a tick
* `Dashboard.play_eq`: the frames and the ending of the loop
* `loop_follows_script`: all of it together
-/

namespace IoWatch

/-! ## Endings -/

/-- What waiting ends with ends the loop: one of two keys is pressed, or waiting fails. -/
inductive Happening.Ends : Happening → Ending → Prop where
  | q : Ends (.key 'q') .quit
  | c : Ends (.key 'c') .quit
  | failure (fault : Fault) : Ends (.failure fault) (.failed fault)

namespace Happening

variable {h : Happening}

theorem ending?_eq_some_iff {ending : Ending} : h.ending? = some ending ↔ h.Ends ending := by
  constructor
  · intro hending
    cases h with
    | nothing => cases hending
    | otherEvent => cases hending
    | failure fault =>
      cases hending
      exact .failure fault
    | key c =>
      simp only [ending?] at hending
      split at hending
      · rename_i hquit
        cases hending
        rcases Bool.or_eq_true_iff.mp hquit with hq | hc
        · rw [of_decide_eq_true hq]
          exact .q
        · rw [of_decide_eq_true hc]
          exact .c
      · cases hending
  · rintro ⟨⟩ <;> rfl

theorem ending?_eq_none_iff : h.ending? = none ↔ ∀ ending, ¬ h.Ends ending := by
  simp only [Option.eq_none_iff_forall_ne_some, ne_eq, ending?_eq_some_iff]

end Happening

/-! ## Turns -/

namespace Turn

/-- What a turn that does not end the loop does to the dashboard and its usage. -/
def steps (refreshMs : Nat) (turn : Turn) : List Watch.Step :=
  turn.moment.samples.map .sample ++
    if refreshMs ≤ turn.sinceTickMs then [.tick turn.now] else []

variable {refreshMs : Nat} {turn : Turn}

theorem samples_steps : Watch.samples (turn.steps refreshMs) = turn.moment.samples := by
  rw [steps, Watch.samples_append, Watch.samples_map_sample]
  split <;> simp [Watch.samples]

theorem samples_flatMap_steps (turns : List Turn) :
    Watch.samples (turns.flatMap (steps refreshMs)) = turns.flatMap (·.moment.samples) := by
  induction turns with
  | nil => rfl
  | cons turn turns ih =>
    rw [List.flatMap_cons, List.flatMap_cons, Watch.samples_append, samples_steps, ih]

theorem glances_steps (u : Usage) :
    u.glances (turn.steps refreshMs) =
      if refreshMs ≤ turn.sinceTickMs then [⟨u.updateAll turn.moment.samples, turn.now⟩] else [] := by
  rw [steps, Usage.glances_append, Usage.glances_map_sample, Watch.samples_map_sample]
  split <;> rfl

end Turn

namespace Usage

/-- The usage with the samples of the first `i` turns. -/
def fed (u : Usage) (turns : List Turn) (i : Nat) : Usage :=
  u.updateAll ((turns.take i).flatMap (·.moment.samples))

/-- What the ticks behind the first `i` turns have seen, if none of these turns ends the loop. -/
def ticked (u : Usage) (refreshMs : Nat) (turns : List Turn) (i : Nat) : List Glance :=
  u.glances ((turns.take i).flatMap (Turn.steps refreshMs))

variable {u : Usage} {refreshMs : Nat} {turn : Turn} {turns : List Turn} {i : Nat}

theorem fed_cons_succ :
    u.fed (turn :: turns) (i + 1) = (u.updateAll turn.moment.samples).fed turns i := by
  rw [fed, List.take_succ_cons, List.flatMap_cons, updateAll_append]
  rfl

theorem ticked_cons_succ :
    u.ticked refreshMs (turn :: turns) (i + 1) =
      u.glances (turn.steps refreshMs) ++
        (u.updateAll turn.moment.samples).ticked refreshMs turns i := by
  rw [ticked, List.take_succ_cons, List.flatMap_cons, glances_append, Turn.samples_steps]
  rfl

/-- A turn brings a tick exactly if the refresh period has passed; the tick sees all samples so
far. -/
theorem ticked_succ (h : turns[i]? = some turn) :
    u.ticked refreshMs turns (i + 1) = u.ticked refreshMs turns i ++
      if refreshMs ≤ turn.sinceTickMs then [⟨u.fed turns (i + 1), turn.now⟩] else [] := by
  rw [ticked, ticked, fed, List.take_add_one, h, Option.toList_some, List.flatMap_append,
    List.flatMap_append, glances_append, Turn.samples_flatMap_steps, updateAll_append]
  simp only [List.flatMap_cons, List.flatMap_nil, List.append_nil, Turn.glances_steps]

/-- Turns that come before the refresh period has passed bring no tick. -/
theorem ticked_eq_of_early {k : Nat} (hik : i ≤ k)
    (h : ∀ m, i ≤ m → m < k → ∀ turn, turns[m]? = some turn → turn.sinceTickMs < refreshMs) :
    u.ticked refreshMs turns k = u.ticked refreshMs turns i := by
  induction hik with
  | refl => rfl
  | @step k hik ih =>
    rw [← ih fun m him hmk => h m him (Nat.lt_succ_of_lt hmk)]
    cases hturn : turns[k]? with
    | none => rw [ticked, ticked, List.take_add_one, hturn, Option.toList_none, List.append_nil]
    | some turn =>
      have hearly := h k hik k.lt_succ_self turn hturn
      rw [ticked_succ hturn, if_neg (Nat.not_le.mpr hearly), List.append_nil]

/-- Without a refresh period every turn brings a tick. -/
theorem length_ticked_zero (hi : i ≤ turns.length) : (u.ticked 0 turns i).length = i := by
  induction i with
  | zero => rfl
  | succ i ih =>
    rw [ticked_succ (List.getElem?_eq_getElem hi), if_pos (Nat.zero_le _), List.length_append,
      ih (Nat.le_of_succ_le hi), List.length_singleton]

end Usage

/-- The turn at a place of a script ends the loop, if the loop gets there. Behind the script stands a
key that ends it. A turn that ends the loop by what happens in it brings no tick that could abort. -/
inductive Brings (refreshMs : Nat) (d : Dashboard) (u : Usage) (turns : List Turn) :
    Nat → Ending → Prop where
  | ranOut {i : Nat} (hi : i = turns.length) : Brings refreshMs d u turns i .quit
  | happening {i : Nat} {turn : Turn} {ending : Ending} (hturn : turns[i]? = some turn)
      (hends : turn.moment.happening.Ends ending) : Brings refreshMs d u turns i ending
  | abort {i : Nat} {turn : Turn} {reason : Abort} (hturn : turns[i]? = some turn)
      (hgoes : ∀ ending, ¬ turn.moment.happening.Ends ending)
      (hticks : refreshMs ≤ turn.sinceTickMs)
      (haborts : ((d.after (u.ticked refreshMs turns i)).tick (u.fed turns (i + 1)) turn.now).2 =
        .error reason) : Brings refreshMs d u turns i (.aborted reason)

section Loop

variable {refreshMs : Nat} {d : Dashboard} {u : Usage} {turn : Turn} {turns : List Turn}
  {ending : Ending}

theorem brings_nil : Brings refreshMs d u [] 0 ending ↔ .quit = ending := by
  constructor
  · rintro (_ | ⟨hturn, -⟩ | ⟨hturn, -, -, -⟩)
    · rfl
    · cases hturn
    · cases hturn
  · rintro rfl
    exact .ranOut rfl

theorem brings_zero_of_ends (h : turn.moment.happening.Ends ending) (ending' : Ending) :
    Brings refreshMs d u (turn :: turns) 0 ending' ↔ ending = ending' := by
  have hending := Happening.ending?_eq_some_iff.mpr h
  constructor
  · rintro (hi | ⟨hturn, hends⟩ | ⟨hturn, hgoes, -, -⟩)
    · cases hi
    · cases hturn
      rw [← Happening.ending?_eq_some_iff, hending] at hends
      exact Option.some.inj hends
    · cases hturn
      exact absurd h (hgoes ending)
  · rintro rfl
    exact .happening rfl h

theorem brings_zero_of_goes (h : ∀ ending, ¬ turn.moment.happening.Ends ending) :
    Brings refreshMs d u (turn :: turns) 0 ending ↔
      refreshMs ≤ turn.sinceTickMs ∧ ∃ reason,
        (d.tick (u.updateAll turn.moment.samples) turn.now).2 = .error reason ∧
          .aborted reason = ending := by
  have hfed : u.fed (turn :: turns) 1 = u.updateAll turn.moment.samples := by
    rw [Usage.fed_cons_succ]
    rfl
  constructor
  · rintro (hi | ⟨hturn, hends⟩ | ⟨hturn, -, hticks, haborts⟩)
    · cases hi
    · cases hturn
      exact absurd hends (h ending)
    · cases hturn
      rw [hfed] at haborts
      exact ⟨hticks, _, haborts, rfl⟩
  · rintro ⟨hticks, reason, haborts, rfl⟩
    exact .abort rfl h hticks (by rwa [hfed])

/-- The first turn gives way to a loop over the other ones, with what it leaves. -/
theorem brings_succ {i : Nat} :
    Brings refreshMs d u (turn :: turns) (i + 1) ending ↔
      Brings refreshMs (d.after (u.glances (turn.steps refreshMs)))
        (u.updateAll turn.moment.samples) turns i ending := by
  constructor
  · rintro (hi | ⟨hturn, hends⟩ | ⟨hturn, hgoes, hticks, haborts⟩)
    · exact .ranOut (Nat.succ.inj hi)
    · exact .happening hturn hends
    · rw [Usage.ticked_cons_succ, Dashboard.after_append, Usage.fed_cons_succ] at haborts
      exact .abort hturn hgoes hticks haborts
  · rintro (hi | ⟨hturn, hends⟩ | ⟨hturn, hgoes, hticks, haborts⟩)
    · exact .ranOut (congrArg Nat.succ hi)
    · exact .happening hturn hends
    · rw [← Dashboard.after_append, ← Usage.ticked_cons_succ, ← Usage.fed_cons_succ] at haborts
      exact .abort hturn hgoes hticks haborts

/-! ## Frames -/

namespace Dashboard

variable (width height : Nat)

theorem play_of_ends (h : turn.moment.happening.Ends ending) :
    d.play width height refreshMs u (turn :: turns) = ([d.frame width height], ending) := by
  simp only [play, Happening.ending?_eq_some_iff.mpr h]

theorem play_of_aborts {reason : Abort} (hgoes : ∀ ending, ¬ turn.moment.happening.Ends ending)
    (hticks : refreshMs ≤ turn.sinceTickMs)
    (haborts : (d.tick (u.updateAll turn.moment.samples) turn.now).2 = .error reason) :
    d.play width height refreshMs u (turn :: turns) =
      ([d.frame width height], .aborted reason) := by
  obtain ⟨d', h⟩ : ∃ d', d.tick (u.updateAll turn.moment.samples) turn.now = (d', .error reason) :=
    ⟨_, Prod.ext rfl haborts⟩
  simp only [play, Happening.ending?_eq_none_iff.mpr hgoes, hticks, h, if_true]

/-- A turn that does not end the loop and whose tick, if there is one, completes: the loop goes on
with what the turn leaves. -/
theorem play_of_goes (hgoes : ∀ ending, ¬ turn.moment.happening.Ends ending)
    (hcompletes : refreshMs ≤ turn.sinceTickMs →
      (d.tick (u.updateAll turn.moment.samples) turn.now).2 = .ok ()) :
    d.play width height refreshMs u (turn :: turns) =
      let rest := (d.after (u.glances (turn.steps refreshMs))).play width height refreshMs
        (u.updateAll turn.moment.samples) turns
      (d.frame width height :: rest.1, rest.2) := by
  rw [Turn.glances_steps]
  simp only [play, Happening.ending?_eq_none_iff.mpr hgoes]
  by_cases hticks : refreshMs ≤ turn.sinceTickMs
  · obtain ⟨d', h⟩ : ∃ d', d.tick (u.updateAll turn.moment.samples) turn.now = (d', .ok ()) :=
      ⟨_, Prod.ext rfl (hcompletes hticks)⟩
    simp only [hticks, if_true, h, after_cons, after_nil]
  · simp only [hticks, if_false, after_nil]

/-- The loop stops at the first turn that ends it, with the ending that this turn brings. In front of
every turn up to this one it shows the dashboard as the ticks so far have left it. -/
theorem play_eq (refreshMs : Nat) (d : Dashboard) (u : Usage) (turns : List Turn) :
    ∃ j, (∀ i < j, ∀ ending, ¬ Brings refreshMs d u turns i ending) ∧
      (∀ ending, Brings refreshMs d u turns j ending ↔
        (d.play width height refreshMs u turns).2 = ending) ∧
      (d.play width height refreshMs u turns).1 =
        (List.range (j + 1)).map fun i =>
          (d.after (u.ticked refreshMs turns i)).frame width height := by
  induction turns generalizing d u with
  | nil => exact ⟨0, by simp, fun ending => brings_nil, rfl⟩
  | cons turn turns ih =>
    by_cases hends : ∃ ending, turn.moment.happening.Ends ending
    · obtain ⟨ending, hends⟩ := hends
      rw [play_of_ends width height hends]
      exact ⟨0, by simp, brings_zero_of_ends hends, rfl⟩
    rw [not_exists] at hends
    by_cases haborts : refreshMs ≤ turn.sinceTickMs ∧ ∃ reason,
        (d.tick (u.updateAll turn.moment.samples) turn.now).2 = .error reason
    · obtain ⟨hticks, reason, haborts⟩ := haborts
      rw [play_of_aborts width height hends hticks haborts]
      refine ⟨0, by simp, fun ending => ?_, rfl⟩
      rw [brings_zero_of_goes hends, haborts]
      simp [hticks]
    obtain ⟨j, hbefore, hending, hframes⟩ := ih (d.after (u.glances (turn.steps refreshMs)))
      (u.updateAll turn.moment.samples)
    have hcompletes : refreshMs ≤ turn.sinceTickMs →
        (d.tick (u.updateAll turn.moment.samples) turn.now).2 = .ok () := by
      intro hticks
      cases h : (d.tick (u.updateAll turn.moment.samples) turn.now).2 with
      | ok => rfl
      | error reason => exact absurd ⟨hticks, reason, h⟩ haborts
    rw [play_of_goes width height hends hcompletes]
    refine ⟨j + 1, ?_, fun ending => brings_succ.trans (hending ending), ?_⟩
    · intro i hi ending
      cases i with
      | zero =>
        rw [brings_zero_of_goes hends]
        rintro ⟨hticks, reason, h, -⟩
        exact haborts ⟨hticks, reason, h⟩
      | succ i =>
        rw [brings_succ]
        exact hbefore i (Nat.lt_of_succ_lt_succ hi) ending
    · refine (congrArg (d.frame width height :: ·) hframes).trans ?_
      rw [List.range_succ_eq_map (n := j + 1), List.map_cons, List.map_map]
      simp only [Function.comp_def, Usage.ticked_cons_succ, after_append]
      rfl

end Dashboard

/-- A turn in front of the one that ends the loop brings a tick exactly if the refresh period has
passed, whatever else has happened, and the tick completes. -/
theorem ticks_of_goes {i : Nat} (hgoes : ∀ ending, ¬ Brings refreshMs d u turns i ending)
    (hturn : turns[i]? = some turn) (hticks : refreshMs ≤ turn.sinceTickMs) :
    ((d.after (u.ticked refreshMs turns i)).tick (u.fed turns (i + 1)) turn.now).2 = .ok () := by
  cases h : ((d.after (u.ticked refreshMs turns i)).tick (u.fed turns (i + 1)) turn.now).2 with
  | ok => rfl
  | error reason =>
    refine absurd (.abort hturn (fun ending hends => ?_) hticks h) (hgoes (.aborted reason))
    exact hgoes ending (.happening hturn hends)

end Loop

/-- **The loop follows its script.** Take any dashboard, usage, size of the screen, refresh period
and script, in which waiting may end with anything after any time and any samples may come in. Let
`j` be the first turn that ends the loop: at which waiting fails or one of the two keys is pressed,
or behind which a tick aborts, or else the key behind the script. The loop ends there in that way,
after `j + 1` frames, counted from no turn on. Each frame shows the dashboard as the ticks before it
have left it. Every turn before `j` after which the refresh period has passed brings a tick, which
completes and sees the samples of all turns so far, and no other turn does: so each turn brings one
if there is no refresh period, and none does if it never passes. Where no tick comes in between, two
frames are the same, whatever samples come in; without ticks all frames are. -/
theorem loop_follows_script (width height refreshMs : Nat) (d : Dashboard) (u : Usage)
    (turns : List Turn) :
    let shown := d.play width height refreshMs u turns
    let ticked (i : Nat) : List Glance := u.ticked refreshMs turns i
    ∃ j, (∀ i < j, ∀ ending, ¬ Brings refreshMs d u turns i ending) ∧
      (∀ ending, Brings refreshMs d u turns j ending ↔ shown.2 = ending) ∧
      shown.1.length = j + 1 ∧
      (∀ i ≤ j, shown.1[i]? = some ((d.after (ticked i)).frame width height)) ∧
      (∀ i < j, ∃ turn, turns[i]? = some turn ∧
        ticked (i + 1) = ticked i ++
          (if refreshMs ≤ turn.sinceTickMs then [⟨u.fed turns (i + 1), turn.now⟩] else []) ∧
        (refreshMs ≤ turn.sinceTickMs →
          ((d.after (ticked i)).tick (u.fed turns (i + 1)) turn.now).2 = .ok ())) ∧
      (refreshMs = 0 → ∀ i ≤ j, (ticked i).length = i) ∧
      (∀ i k, i ≤ k → k ≤ j →
        (∀ m, i ≤ m → m < k → ∀ turn, turns[m]? = some turn → turn.sinceTickMs < refreshMs) →
        shown.1[k]? = shown.1[i]?) ∧
      ((∀ turn ∈ turns, turn.sinceTickMs < refreshMs) →
        ∀ screen ∈ shown.1, screen = d.frame width height) := by
  intro shown ticked
  obtain ⟨j, hbefore, hending, hframes⟩ := d.play_eq width height refreshMs u turns
  have hlength : shown.1.length = j + 1 := by
    rw [hframes, List.length_map, List.length_range]
  have hframe : ∀ i ≤ j, shown.1[i]? = some ((d.after (ticked i)).frame width height) := by
    intro i hi
    rw [hframes, List.getElem?_map, List.getElem?_range (Nat.lt_succ_of_le hi)]
    rfl
  have hj : j ≤ turns.length :=
    Nat.le_of_not_lt fun hlt => hbefore _ hlt .quit (.ranOut rfl)
  refine ⟨j, hbefore, hending, hlength, hframe, ?_, ?_, ?_, ?_⟩
  · intro i hi
    have hturn := List.getElem?_eq_getElem (Nat.lt_of_lt_of_le hi hj)
    exact ⟨_, hturn, Usage.ticked_succ hturn, ticks_of_goes (hbefore i hi) hturn⟩
  · rintro rfl i hi
    exact Usage.length_ticked_zero (Nat.le_trans hi hj)
  · intro i k hik hkj hearly
    rw [hframe k hkj, hframe i (Nat.le_trans hik hkj)]
    simp only [ticked, Usage.ticked_eq_of_early hik hearly]
  · intro hearly screen hscreen
    obtain ⟨i, hi⟩ := List.mem_iff_getElem?.mp hscreen
    have hij : i ≤ j := by
      have hlt := (List.getElem?_eq_some_iff.mp hi).1
      omega
    have hnone : ticked i = ticked 0 := Usage.ticked_eq_of_early (Nat.zero_le i)
      fun m _ _ turn hturn => hearly turn (List.mem_of_getElem? hturn)
    rw [hframe i hij, hnone] at hi
    exact (Option.some.inj hi).symm

/-- A key that means nothing comes with a sample after the refresh period, then another sample too
early for a tick, and then waiting fails: the last two of three frames show the first sample, and
the second one is never seen. -/
theorem loop_follows_script_to_failure :
    let d : Dashboard := ⟨7, 10, [0, 0], [0, 0], ⟨0, ⟨0⟩⟩, ⟨0, ⟨0⟩⟩,
      ⟨0, .initial, .ofKb 0 0, .ofKb 0 0⟩⟩
    let turns : List Turn := [⟨⟨[⟨1000, 2048, 1024⟩], .key 'x'⟩, 600, ⟨5⟩⟩,
      ⟨⟨[⟨2000, 4096, 1024⟩], .otherEvent⟩, 100, ⟨6⟩⟩, ⟨⟨[], .failure .notFound⟩, 500, ⟨7⟩⟩]
    let shown := d.play 80 24 500 (.start 0) turns
    let ticked := (d.tick ((Usage.start 0).update ⟨1000, 2048, 1024⟩) ⟨5⟩).1
    shown.2 = .failed .notFound ∧ shown.1.length = 3 ∧
      shown.1[1]? = some (ticked.frame 80 24) ∧ shown.1[2]? = shown.1[1]? := by
  intro d turns shown ticked
  obtain ⟨j, -, hending, hlength, hframe, -, -, hsame, -⟩ :=
    loop_follows_script 80 24 500 d (.start 0) turns
  have hthree : shown.1.length = 3 := by decide +kernel
  obtain rfl : j = 2 := Nat.succ.inj (hlength.symm.trans hthree)
  refine ⟨(hending _).mp (.happening rfl (.failure .notFound)), hthree,
    hframe 1 (by decide), hsame 1 2 (by decide) (by decide) ?_⟩
  intro m hm hm' turn hturn
  obtain rfl : m = 1 := by omega
  cases hturn
  decide

end IoWatch
