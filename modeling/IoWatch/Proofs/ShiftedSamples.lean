import IoWatch.Proofs.Independence

/-!
# Rates depend on differences only

A rate between two samples is computed from differences behind comparisons, and a shift of the clock
or of a counter changes neither. The window of a usage starts with two samples that nobody has made
and no shift moves, so two runs, of which one has all its readable samples shifted, come to agree as
their samples push those out: one readable sample for what is said of the current one, two for what
is said of both.

## Main definitions

* `Sample.ShiftedBy later more`: a sample with a clock that is ahead, and larger counters
* `Sample.Moved later more`: both samples are unreadable, or the second one is the first one shifted
* `Usage.ShiftedBy later more n`: the windows of two usages after `n` readable samples

## Main results

* `deltaRate_congr`, `lifetimeRate_congr`: the rates of a counter depend on differences only
* `Usage.ShiftedBy.updateAll`: what two runs have in common, sample by sample
* `rates_depend_on_differences`: the rates of both counters after every number of samples
-/

namespace IoWatch

/-! ## Rates -/

section Rates

variable {a b a' b' : Int64} {prevMs currMs prevBytes currBytes : Int64}
  {prevMs' currMs' prevBytes' currBytes' : Int64} {sinceMs sinceMs' : Int64}

theorem difference_congr (h : a'.toInt - b'.toInt = a.toInt - b.toInt) :
    difference a' b' = difference a b := by
  rw [difference, difference, h]

theorem le_iff_of_difference (h : a'.toInt - b'.toInt = a.toInt - b.toInt) :
    a' ≤ b' ↔ a ≤ b := by
  rw [Int64.le_iff_toInt_le, Int64.le_iff_toInt_le]
  omega

/-- The rate of a counter between two samples depends on differences only. -/
theorem deltaRate_congr (htime : currMs'.toInt - prevMs'.toInt = currMs.toInt - prevMs.toInt)
    (hbytes : currBytes'.toInt - prevBytes'.toInt = currBytes.toInt - prevBytes.toInt) :
    deltaRate prevMs' currMs' prevBytes' currBytes' =
      deltaRate prevMs currMs prevBytes currBytes := by
  simp only [deltaRate, le_iff_of_difference htime, le_iff_of_difference hbytes,
    difference_congr htime, difference_congr hbytes]

/-- The rate of a counter since a start depends on its value and on one difference. -/
theorem lifetimeRate_congr (htime : currMs'.toInt - sinceMs'.toInt = currMs.toInt - sinceMs.toInt)
    (hbytes : currBytes'.toInt = currBytes.toInt) :
    lifetimeRate sinceMs' currMs' currBytes' = lifetimeRate sinceMs currMs currBytes := by
  rw [Int64.toInt_inj] at hbytes
  simp only [lifetimeRate, le_iff_of_difference htime, difference_congr htime, hbytes]

end Rates

/-! ## Samples -/

/-- The second sample is the first one, seen by a clock that is ahead and by counters that are
larger. All fields of both are words, so the shift keeps within the words. -/
structure Sample.ShiftedBy (later : Int) (more : Side → Int) (x y : Sample) : Prop where
  timestampMs : y.timestampMs.toInt = x.timestampMs.toInt + later
  bytes : ∀ side, (y.bytes side).toInt = (x.bytes side).toInt + more side

/-- Samples at the same place of two runs: the same ones are unreadable, and the others are
shifted. -/
inductive Sample.Moved (later : Int) (more : Side → Int) : Sample → Sample → Prop where
  | unreadable {x y : Sample} (hx : x.isUnreadable = true) (hy : y.isUnreadable = true) :
      Moved later more x y
  | readable {x y : Sample} (hx : x.isUnreadable = false) (hy : y.isUnreadable = false)
      (h : x.ShiftedBy later more y) : Moved later more x y

variable {later : Int} {more : Side → Int} {n : Nat} {u v : Usage} {x y : Sample}

namespace Usage

/-- The windows of two usages after `n` readable samples: what these have brought in is shifted. -/
structure ShiftedBy (later : Int) (more : Side → Int) (n : Nat) (u v : Usage) : Prop where
  current : 1 ≤ n → u.window.current.ShiftedBy later more v.window.current
  previous : 2 ≤ n → u.window.previous.ShiftedBy later more v.window.previous

namespace ShiftedBy

/-- Nothing is said of what windows start with. -/
theorem start (sinceMs sinceMs' : Int64) :
    ShiftedBy later more 0 (start sinceMs) (start sinceMs') :=
  ⟨fun h => absurd h (by decide), fun h => absurd h (by decide)⟩

theorem update_of_unreadable (h : u.ShiftedBy later more n v) (hx : x.isUnreadable = true)
    (hy : y.isUnreadable = true) : (u.update x).ShiftedBy later more n (v.update y) := by
  rw [Usage.update, Usage.update, Window.advance_of_unreadable hx, Window.advance_of_unreadable hy]
  exact ⟨h.current, h.previous⟩

/-- A readable sample becomes the current one, and what was said of the current one is said of the
previous one. -/
theorem update_of_readable (h : u.ShiftedBy later more n v) (hx : x.isUnreadable = false)
    (hy : y.isUnreadable = false) (hxy : x.ShiftedBy later more y) :
    (u.update x).ShiftedBy later more (n + 1) (v.update y) := by
  rw [Usage.update, Usage.update, Window.advance_of_readable hx, Window.advance_of_readable hy]
  exact ⟨fun _ => hxy, fun htwo => h.current (Nat.le_of_succ_le_succ htwo)⟩

theorem updateAll (h : u.ShiftedBy later more n v) {samples samples' : List Sample}
    (hmoved : List.Forall₂ (Sample.Moved later more) samples samples') :
    (u.updateAll samples).ShiftedBy later more (n + (Sample.readable samples).length)
      (v.updateAll samples') := by
  induction hmoved generalizing u v n with
  | nil => exact h
  | @cons x y samples samples' hxy _ ih =>
    cases hxy with
    | unreadable hx hy =>
      rw [Sample.readable_cons_of_unreadable hx]
      exact ih (h.update_of_unreadable hx hy)
    | readable hx hy hxy =>
      rw [Sample.readable_cons_of_readable hx, List.length_cons, Nat.add_comm _ 1,
        ← Nat.add_assoc]
      exact ih (h.update_of_readable hx hy hxy)

/-- Two readable samples are enough for the rates between them. -/
theorem rates_recent (h : u.ShiftedBy later more n v) (hn : 2 ≤ n) :
    u.rates .recent = v.rates .recent := by
  have hcurrent := h.current (Nat.le_of_succ_le hn)
  have hprevious := h.previous hn
  have halone (side : Side) : v.alone side .recent = u.alone side .recent := by
    apply deltaRate_congr
    · rw [hcurrent.timestampMs, hprevious.timestampMs]
      omega
    · rw [hcurrent.bytes, hprevious.bytes]
      omega
  rw [rates_eq, rates_eq, halone, halone]

/-- One readable sample is enough for the rates since a start, if the start is shifted like the
samples and the counters are not. -/
theorem rates_lifetime (h : u.ShiftedBy later more n v) (hn : 1 ≤ n)
    (hsince : v.sinceMs.toInt = u.sinceMs.toInt + later) (hmore : ∀ side, more side = 0) :
    u.rates .lifetime = v.rates .lifetime := by
  have hcurrent := h.current hn
  have halone (side : Side) : v.alone side .lifetime = u.alone side .lifetime := by
    apply lifetimeRate_congr
    · rw [hcurrent.timestampMs, hsince]
      omega
    · rw [hcurrent.bytes, hmore, Int.add_zero]
  rw [rates_eq, rates_eq, halone, halone]

end ShiftedBy

end Usage

/-- **Rates depend on differences only.** Let two usages take samples of which the same ones are
unreadable, and let every readable one of the second run be the one of the first run with the same
shift of its time and of each of its counters; all of them are words, and nothing else is asked of
the shift. After every number of samples among which two are readable, the rates between the last
two are the same in both runs, to the bit, and where they overflow in one run they do in the other.
If the start is shifted with the times and no counter is, the same holds of the rates since the
start as soon as one sample is readable. -/
theorem rates_depend_on_differences {later : Int} {more : Side → Int}
    {samples samples' : List Sample}
    (hmoved : List.Forall₂ (Sample.Moved later more) samples samples')
    (sinceMs sinceMs' : Int64) (n : Nat) :
    let u := (Usage.start sinceMs).updateAll (samples.take n)
    let v := (Usage.start sinceMs').updateAll (samples'.take n)
    (2 ≤ (Sample.readable (samples.take n)).length → u.rates .recent = v.rates .recent) ∧
    (sinceMs'.toInt = sinceMs.toInt + later → (∀ side, more side = 0) →
      1 ≤ (Sample.readable (samples.take n)).length →
      u.rates .lifetime = v.rates .lifetime) := by
  intro u v
  have hshifted : u.ShiftedBy later more (0 + (Sample.readable (samples.take n)).length) v :=
    (Usage.ShiftedBy.start sinceMs sinceMs').updateAll (List.forall₂_take n hmoved)
  rw [Nat.zero_add] at hshifted
  constructor
  · exact hshifted.rates_recent
  · intro hsince hmore hone
    refine hshifted.rates_lifetime hone ?_ hmore
    rw [Usage.updateAll_sinceMs, Usage.updateAll_sinceMs]
    exact hsince

/-- One byte more than the largest word is written between the first two readable samples, so that
the rates overflow in both runs; behind the third one both runs have rates again. With one readable
sample they still differ, since the first one is compared with what the window starts with. Where
only the clock is ahead, the rates since the start agree from the first sample on. -/
theorem rates_depend_on_differences_past_overflow :
    let more : Side → Int := fun side => if side = .read then -2048 else 5
    let samples : List Sample :=
      [⟨1000, 2048, Int64.minValue⟩, .unreadable, ⟨2000, 4096, 0⟩, ⟨3000, 4096, 1⟩]
    let samples' : List Sample :=
      [⟨0, 0, Int64.minValue + 5⟩, .unreadable, ⟨1000, 2048, 5⟩, ⟨2000, 2048, 6⟩]
    let samples'' : List Sample :=
      [⟨0, 2048, Int64.minValue⟩, ⟨7, Int64.minValue, Int64.minValue⟩, ⟨1000, 4096, 0⟩]
    let u (n : Nat) := (Usage.start 400).updateAll (samples.take n)
    let v (n : Nat) := (Usage.start 7).updateAll (samples'.take n)
    let w (n : Nat) := (Usage.start (-600)).updateAll (samples''.take n)
    List.Forall₂ (Sample.Moved (-1000) more) samples samples' ∧
      List.Forall₂ (Sample.Moved (-1000) fun _ => 0) (samples.take 3) samples'' ∧
      (u 1).rates .recent ≠ (v 1).rates .recent ∧
      (u 3).rates .recent = .error .overflow ∧ (v 3).rates .recent = .error .overflow ∧
      (u 4).rates .recent = (v 4).rates .recent ∧
      (u 1).rates .lifetime = (w 1).rates .lifetime := by
  intro more samples samples' samples'' u v w
  have hmoved : List.Forall₂ (Sample.Moved (-1000) more) samples samples' := by
    refine .cons (.readable rfl rfl ⟨rfl, ?_⟩) (.cons (.unreadable rfl rfl)
      (.cons (.readable rfl rfl ⟨rfl, ?_⟩) (.cons (.readable rfl rfl ⟨rfl, ?_⟩) .nil)))
    all_goals exact fun side => by cases side <;> rfl
  have hlater : List.Forall₂ (Sample.Moved (-1000) fun _ => 0) (samples.take 3) samples'' := by
    refine .cons (.readable rfl rfl ⟨rfl, ?_⟩) (.cons (.unreadable rfl rfl)
      (.cons (.readable rfl rfl ⟨rfl, ?_⟩) .nil))
    all_goals exact fun side => by cases side <;> rfl
  have hthree : (u 3).rates .recent = (v 3).rates .recent :=
    (rates_depend_on_differences hmoved 400 7 3).1 (by decide)
  have hoverflow : (u 3).rates .recent = .error .overflow := by decide +kernel
  refine ⟨hmoved, hlater, by decide +kernel, hoverflow, hthree.symm.trans hoverflow, ?_, ?_⟩
  · exact (rates_depend_on_differences hmoved 400 7 4).1 (by decide)
  · exact (rates_depend_on_differences hlater 400 (-600) 1).2 rfl (fun _ => rfl) (by decide)

end IoWatch
