import IoWatch.Proofs.Delivery
import IoWatch.Proofs.Independence
import IoWatch.Proofs.SlidingHistory

/-!
# Where rates overflow

A rate is computed from differences of words, and only behind its guards. So it overflows exactly
where a difference that is taken is larger than every word, and has a value everywhere else. A
snapshot overflows exactly where one of its rates does. What asks for a snapshot in vain leaves the
usage alone, and the overflow is forgotten when two more readable samples have come.

## Main definitions

* `OverflowsIff`: a computation overflows under a condition, and has a result everywhere else

## Main results

* `OverflowsIff.bind`: one computation behind another
* `not_isWord_iff_of_lt`: the difference to a larger word, if it is no word, is too large
* `overflowsIff_deltaRate`, `overflowsIff_lifetimeRate`, `Usage.overflowsIff_snapshot`: where the
  rates and a snapshot overflow
* `overflow_is_exact`: all of it, after any samples
-/

namespace IoWatch

/-- A computation overflows under a condition, and has a result everywhere else. -/
structure OverflowsIff {α : Type} (x : Except Abort α) (p : Prop) : Prop where
  overflow : p → x = .error .overflow
  result : ¬ p → ∃ a, x = .ok a

namespace OverflowsIff

variable {α β : Type} {x : Except Abort α} {p q : Prop}

theorem ok (a : α) : OverflowsIff (.ok a) False := ⟨False.elim, fun _ => ⟨a, rfl⟩⟩

theorem congr (h : OverflowsIff x p) (hpq : p ↔ q) : OverflowsIff x q :=
  ⟨fun hq => h.overflow (hpq.mpr hq), fun hq => h.result fun hp => hq (hpq.mp hp)⟩

/-- What overflows for no other reason overflows exactly where it does. -/
theorem of_onlyOverflows (h : OnlyOverflows x) : OverflowsIff x (x = .error .overflow) := by
  refine ⟨id, fun hx => ?_⟩
  cases x with
  | ok a => exact ⟨a, rfl⟩
  | error reason => exact absurd (congrArg Except.error (h reason rfl)) hx

/-- Of two computations in a row the second one is not tried where the first one overflows. -/
theorem bind {f : α → Except Abort β} (hx : OverflowsIff x p)
    (hf : ∀ a, OverflowsIff (f a) q) : OverflowsIff (x >>= f) (p ∨ q) := by
  by_cases hp : p
  · rw [hx.overflow hp]
    exact ⟨fun _ => rfl, fun h => absurd (.inl hp) h⟩
  · obtain ⟨a, rfl⟩ := hx.result hp
    apply (hf a).congr
    exact (or_iff_right hp).symm

/-- Behind a guard nothing is computed where it holds. -/
theorem guarded {c : Prop} [Decidable c] (a : α) (hx : OverflowsIff x p) :
    OverflowsIff (if c then .ok a else x) (¬ c ∧ p) := by
  by_cases hc : c
  · rw [if_pos hc]
    apply (ok a).congr
    exact iff_of_false id fun h => h.1 hc
  · rw [if_neg hc]
    apply hx.congr
    exact (and_iff_right hc).symm

theorem difference (a b : Int64) :
    OverflowsIff (IoWatch.difference a b) ¬ IsWord (a.toInt - b.toInt) := by
  refine ⟨difference_of_not_isWord, fun h => ⟨Int64.ofInt (a.toInt - b.toInt), ?_⟩⟩
  exact if_pos (Decidable.not_not.mp h)

end OverflowsIff

/-! ## Rates -/

/-- The difference to a larger word, if it is no word, is too large. -/
theorem not_isWord_iff_of_lt {a b : Int64} (h : b < a) :
    ¬ IsWord (a.toInt - b.toInt) ↔ Int64.maxValue.toInt < a.toInt - b.toInt := by
  rw [Int64.lt_iff_toInt_lt] at h
  have hmin : Int64.minValue.toInt ≤ 0 := by decide
  unfold IsWord
  omega

/-- Both differences are taken behind the guard, the one of the counter first. -/
theorem overflowsIff_deltaRate (prevMs currMs prevBytes currBytes : Int64) :
    OverflowsIff (deltaRate prevMs currMs prevBytes currBytes)
      (prevMs < currMs ∧ prevBytes < currBytes ∧
        (Int64.maxValue.toInt < currBytes.toInt - prevBytes.toInt ∨
          Int64.maxValue.toInt < currMs.toInt - prevMs.toInt)) := by
  have hrate : OverflowsIff (deltaRate prevMs currMs prevBytes currBytes) _ :=
    OverflowsIff.guarded 0 <| (OverflowsIff.difference currBytes prevBytes).bind fun _ =>
      (OverflowsIff.difference currMs prevMs).bind fun _ => .ok _
  apply hrate.congr
  rw [not_or, Int64.not_le, Int64.not_le, or_false, and_assoc]
  apply and_congr_right
  intro htime
  apply and_congr_right
  intro hgrowth
  rw [not_isWord_iff_of_lt htime, not_isWord_iff_of_lt hgrowth]

theorem overflowsIff_lifetimeRate (sinceMs currMs currBytes : Int64) :
    OverflowsIff (lifetimeRate sinceMs currMs currBytes)
      (sinceMs < currMs ∧ Int64.maxValue.toInt < currMs.toInt - sinceMs.toInt) := by
  have hrate : OverflowsIff (lifetimeRate sinceMs currMs currBytes) _ :=
    OverflowsIff.guarded 0 <| (OverflowsIff.difference currMs sinceMs).bind fun _ => .ok _
  apply hrate.congr
  rw [Int64.not_le, or_false]
  apply and_congr_right
  intro htime
  rw [not_isWord_iff_of_lt htime]

/-! ## Snapshots -/

namespace Usage

variable (u : Usage)

theorem onlyOverflows_alone (side : Side) (span : Span) : OnlyOverflows (u.alone side span) := by
  cases span with
  | recent => exact .deltaRate _ _ _ _
  | lifetime => exact .lifetimeRate _ _ _

/-- The rates over a span overflow where the one of a counter does. -/
theorem overflowsIff_rates (span : Span) :
    OverflowsIff (u.rates span) (∃ side, u.alone side span = .error .overflow) := by
  have halone := fun side => OverflowsIff.of_onlyOverflows (u.onlyOverflows_alone side span)
  have hrates := (halone .read).bind fun read => (halone .write).bind fun write =>
    OverflowsIff.ok (Rates.ofKb read write)
  rw [rates_eq]
  apply hrates.congr
  rw [or_false]
  constructor
  · rintro (hread | hwrite)
    · exact ⟨.read, hread⟩
    · exact ⟨.write, hwrite⟩
  · rintro ⟨_ | _, hside⟩
    · exact .inl hside
    · exact .inr hside

/-- A snapshot overflows where one of its rates does. -/
theorem overflowsIff_snapshot :
    OverflowsIff u.snapshot (∃ span side, u.alone side span = .error .overflow) := by
  have hsnapshot := (u.overflowsIff_rates .recent).bind fun recent =>
    (u.overflowsIff_rates .lifetime).bind fun lifetime =>
      OverflowsIff.ok (Snapshot.mk u.sinceMs u.window recent lifetime)
  apply OverflowsIff.congr hsnapshot
  rw [or_false]
  constructor
  · rintro (hrecent | hlifetime)
    · exact ⟨.recent, hrecent⟩
    · exact ⟨.lifetime, hlifetime⟩
  · rintro ⟨_ | _, hspan⟩
    · exact .inl hspan
    · exact .inr hspan

/-- Two more readable samples leave nothing of what came before them. -/
theorem updateAll_eq_of_two_le (sinceMs : Int64) (before : List Sample) {more : List Sample}
    (h : 2 ≤ (Sample.readable more).length) :
    ((start sinceMs).updateAll before).updateAll more = (start sinceMs).updateAll more := by
  induction before using List.reverseRecOn with
  | nil => rfl
  | append_singleton before x ih =>
    rw [updateAll_append, ← ih]
    exact updateAll_of_replaced _ (.inr h)

end Usage

/-- A publisher that asks for a snapshot in vain is left as it is, and does nothing. -/
theorem Publisher.publish_of_overflow {u : Usage} (hu : u.snapshot = .error .overflow)
    {p : Publisher} (hp : ∀ r, p ≠ .recorder r) (x : Sample) :
    p.publish u x = ⟨p, [], .aborted .overflow⟩ := by
  cases p with
  | rateLog => simp only [publish, hu]
  | jsonLines sink => simp only [publish, hu]
  | recorder r => exact absurd rfl (hp r)

/-- A tick that hands its sample to the publishers keeps the usage that they find. -/
theorem Scheduler.usage_of_delivery {s : Scheduler} {step : Step} {d : Delivery}
    (hd : s.delivery? step = some d) : (s.step step).1.usage = d.usage := by
  obtain ⟨w, source, -, -, -, hstep⟩ := s.step_of_delivery step hd
  rw [hstep]

/-- **Overflow is exact.** The rate of a counter between two samples overflows exactly where time
has passed and the counter has grown, and one of them by more than the largest word. The rate of a
counter since a start overflows exactly where more time than that has passed. A snapshot overflows
exactly where the rate between its two samples does, for one of the counters, or the rate since the
start. All of them have a result everywhere else. Where a snapshot overflows, a publisher that asks
for it is left as it is, and neither a tick of a dashboard nor one of a scheduler changes the usage.
Further samples are taken in as ever, and two readable ones leave nothing of what has overflowed. -/
theorem overflow_is_exact :
    (∀ prevMs currMs prevBytes currBytes : Int64,
      OverflowsIff (deltaRate prevMs currMs prevBytes currBytes)
        (prevMs < currMs ∧ prevBytes < currBytes ∧
          (Int64.maxValue.toInt < currBytes.toInt - prevBytes.toInt ∨
            Int64.maxValue.toInt < currMs.toInt - prevMs.toInt))) ∧
    (∀ sinceMs currMs currBytes : Int64,
      OverflowsIff (lifetimeRate sinceMs currMs currBytes)
        (sinceMs < currMs ∧ Int64.maxValue.toInt < currMs.toInt - sinceMs.toInt)) ∧
    ∀ (sinceMs : Int64) (samples : List Sample),
      let u := (Usage.start sinceMs).updateAll samples
      OverflowsIff u.snapshot
        (u.alone .read .recent = .error .overflow ∨ u.alone .write .recent = .error .overflow ∨
          ∃ side, u.alone side .lifetime = .error .overflow) ∧
      (u.snapshot = .error .overflow →
        (∀ p : Publisher, (∀ r, p ≠ .recorder r) → ∀ x,
          p.publish u x = ⟨p, [], .aborted .overflow⟩) ∧
        (∀ (d : Dashboard) (now : ClockTime), (Watch.mk d u).step (.tick now) = ⟨d, u⟩) ∧
        (∀ (s : Scheduler) (step : Step) (d : Delivery), s.delivery? step = some d → d.usage = u →
          (s.step step).1.usage = u) ∧
        ∀ more : List Sample,
          (u.updateAll more).window = Window.initial.advanceAll (samples ++ more) ∧
          (2 ≤ (Sample.readable more).length →
            u.updateAll more = (Usage.start sinceMs).updateAll more)) := by
  refine ⟨overflowsIff_deltaRate, overflowsIff_lifetimeRate, fun sinceMs samples => ?_⟩
  intro u
  constructor
  · apply u.overflowsIff_snapshot.congr
    constructor
    · rintro ⟨_ | _, _ | _, h⟩
      · exact .inl h
      · exact .inr (.inl h)
      · exact .inr (.inr ⟨.read, h⟩)
      · exact .inr (.inr ⟨.write, h⟩)
    · rintro (h | h | ⟨side, h⟩)
      · exact ⟨.recent, .read, h⟩
      · exact ⟨.recent, .write, h⟩
      · exact ⟨.lifetime, side, h⟩
  · intro hu
    refine ⟨fun p hp => Publisher.publish_of_overflow hu hp, ?_, ?_, fun more => ⟨?_, ?_⟩⟩
    · intro d now
      rw [Watch.step, Dashboard.tick_of_abort hu]
    · rintro s step d hd hdu
      rw [Scheduler.usage_of_delivery hd, hdu]
    · rw [← Usage.updateAll_append, Usage.updateAll_window]
      rfl
    · exact Usage.updateAll_eq_of_two_le sinceMs samples

/-- The counter of reads grows by one more than the largest word, and with it the snapshot is gone.
It is back when two more samples have come. More time than the largest word does no harm to a
counter that stands still. -/
theorem overflow_is_exact_of_growth :
    let u := (Usage.start 0).updateAll [⟨0, Int64.minValue, 7⟩, ⟨1, 0, 7⟩]
    let more : List Sample := [⟨2, 0, 7⟩, ⟨3, 1, 7⟩]
    u.alone .read .recent = .error .overflow ∧ u.snapshot = .error .overflow ∧
      u.updateAll more = (Usage.start 0).updateAll more ∧
      (∃ s, (u.updateAll more).snapshot = .ok s) ∧
      ∃ rate, deltaRate Int64.minValue Int64.maxValue 5 5 = .ok rate := by
  intro u more
  obtain ⟨hdelta, -, hsnapshots⟩ := overflow_is_exact
  obtain ⟨hsnapshot, hlater⟩ := hsnapshots 0 [⟨0, Int64.minValue, 7⟩, ⟨1, 0, 7⟩]
  have hread : u.alone .read .recent = .error .overflow :=
    (hdelta 0 1 Int64.minValue 0).overflow (by decide)
  have hgone : u.snapshot = .error .overflow := hsnapshot.overflow (.inl hread)
  obtain ⟨-, -, -, hmore⟩ := hlater hgone
  have hforgotten : u.updateAll more = (Usage.start 0).updateAll more :=
    (hmore more).2 (by decide)
  refine ⟨hread, hgone, hforgotten, ?_, ?_⟩
  · rw [hforgotten]
    exact ⟨_, rfl⟩
  · exact (hdelta Int64.minValue Int64.maxValue 5 5).result (by decide)

end IoWatch
