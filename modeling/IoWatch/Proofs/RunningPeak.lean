import IoWatch.Proofs.Maxima
import IoWatch.Proofs.SaneRates
import IoWatch.Proofs.SlidingHistory

/-!
# Peaks are running maxima

A peak starts at zero, and a rate replaces it, with the time of day, only if the rate is greater.
Rates are finite whatever the words are, and finite numbers are ordered like integers. So a peak is
the greatest of zero and all rates that ticks have seen, also of those that have left the history,
and a tick replaces it exactly if its rate is greater than all of them.

## Main results

* `isAmount_of_deltaRate`: a rate between two samples is finite and not negative
* `Observed.unique`: ticks see one list of rates
* `Peak.isGreatest_offer`: what one rate does to a peak
* `Dashboard.isGreatest_peak_after`: what a list of ticks does to it
* `Dashboard.renews_iff_lt`: the ticks that set a peak anew
* `peaks_are_running_maxima`: all of it over every run
-/

namespace IoWatch

/-! ## Rates between any two samples -/

theorem toInt_of_difference {a b d : Int64} (h : difference a b = .ok d) :
    d.toInt = a.toInt - b.toInt := by
  by_cases hword : IsWord (a.toInt - b.toInt)
  · rw [difference, if_pos hword] at h
    obtain rfl := Except.ok.inj h
    exact Int64.toInt_ofInt_of_le hword.1 (Int.lt_add_one_of_le hword.2)
  · rw [difference_of_not_isWord hword] at h
    cases h

/-- A rate between two samples is finite and not negative, also where words are. Where it is not set
to zero, both differences are above it. -/
theorem isAmount_of_deltaRate {prevMs currMs prevBytes currBytes : Int64} {x : Binary64}
    (h : deltaRate prevMs currMs prevBytes currBytes = .ok x) : x.IsAmount := by
  by_cases hidle : currMs ≤ prevMs ∨ currBytes ≤ prevBytes
  · rw [deltaRate, if_pos hidle] at h
    obtain rfl := Except.ok.inj h
    exact Binary64.isAmount_zero
  rw [deltaRate, if_neg hidle] at h
  cases hbytes : difference currBytes prevBytes with
  | error reason =>
    rw [hbytes] at h
    cases h
  | ok bytes =>
    cases hmillis : difference currMs prevMs with
    | error reason =>
      rw [hbytes, hmillis] at h
      cases h
    | ok millis =>
      rw [hbytes, hmillis] at h
      obtain rfl := Except.ok.inj h
      rw [not_or, Int64.not_le, Int64.not_le, Int64.lt_iff_toInt_lt, Int64.lt_iff_toInt_lt] at hidle
      have hbytes' := toInt_of_difference hbytes
      have hmillis' := toInt_of_difference hmillis
      exact (isBetween_perSecond (by omega) (by omega)).isAmount

theorem Usage.isFinite_of_rate {u : Usage} {side : Side} {x : Binary64}
    (h : u.rate .recent side .kb = .ok x) : x.IsFinite := by
  cases hrates : u.rates .recent with
  | error reason =>
    rw [rate, hrates] at h
    cases h
  | ok rates =>
    rw [rate, hrates] at h
    obtain rfl := Except.ok.inj h
    exact (isAmount_of_deltaRate (alone_of_rates hrates side).1).isFinite

/-- Ticks do not see one rate and another. -/
theorem Observed.unique {glances : List Glance} {side : Side} {values values' : List Binary64}
    (h : Observed glances side values) (h' : Observed glances side values') : values = values' :=
  List.right_unique_forall₂' (fun _ _ _ hx hx' => Except.ok.inj (hx.symm.trans hx')) h h'

theorem Observed.isFinite {glances : List Glance} {side : Side} {values : List Binary64}
    (h : Observed glances side values) : ∀ x ∈ values, x.IsFinite := by
  induction h with
  | nil => exact List.forall_mem_nil _
  | cons hx _ ih => exact List.forall_mem_cons.mpr ⟨Usage.isFinite_of_rate hx, ih⟩

/-! ## One tick -/

namespace Peak

variable {p : Peak} {xs : List Binary64} {kb : Binary64}

/-- The peak that takes a rate is the greatest of the numbers of before and the rate. -/
theorem isGreatest_offer (hp : IsGreatest {x | x ∈ xs} p.kb) (hxs : ∀ x ∈ xs, x.IsFinite)
    (hkb : kb.IsFinite) (now : ClockTime) :
    IsGreatest {x | x ∈ xs ++ [kb]} (p.offer kb now).kb := by
  have hoffer : (p.offer kb now).kb = if p.kb < kb then kb else p.kb := by
    rw [offer]
    split <;> rfl
  rw [hoffer]
  exact Binary64.isGreatest_concat hp hxs hkb

end Peak

namespace Dashboard

variable {d : Dashboard} {u : Usage} {s : Snapshot}

/-- A tick sets a peak anew if it sees a greater rate. -/
theorem renews_iff_lt (hs : u.snapshot = .ok s) (hd : ∀ side, d.history side ≠ []) (side : Side) :
    d.Renews u side ↔ (d.peak side).kb < s.recent.get side .kb := by
  have htick : ∀ now,
      (d.tick u now).1.peak side = (d.peak side).offer (s.recent.get side .kb) now := by
    intro now
    rw [tick_of_snapshot hs hd, peak_showing]
  constructor
  · intro hrenews
    by_contra hnot
    have hnow := hrenews ⟨(d.peak side).seenAt.seconds + 1⟩
    rw [htick, Peak.offer, if_neg hnot] at hnow
    have hseconds := congrArg ClockTime.seconds hnow
    exact absurd hseconds (Nat.ne_of_lt (Nat.lt_succ_self _))
  · intro hlt now
    rw [htick, Peak.offer, if_pos hlt]

/-! ## Ticks in a row -/

/-- Ticks that see snapshots leave the greatest of the numbers of before and the rates that they
see. -/
theorem isGreatest_peak_after {glances : List Glance} (hg : ∀ g ∈ glances, g.HasSnapshot)
    (hd : ∀ side, d.history side ≠ []) {side : Side} {xs values : List Binary64}
    (hxs : ∀ x ∈ xs, x.IsFinite) (hpeak : IsGreatest {x | x ∈ xs} (d.peak side).kb)
    (hvalues : Observed glances side values) :
    IsGreatest {x | x ∈ xs ++ values} ((d.after glances).peak side).kb := by
  induction hvalues generalizing d xs with
  | nil => rwa [List.append_nil, after_nil]
  | @cons g x glances values hx hvalues ih =>
    obtain ⟨⟨s, hs⟩, hg⟩ := List.forall_mem_cons.mp hg
    have hrate : s.recent.get side .kb = x :=
      Except.ok.inj ((Usage.rate_of_snapshot hs side .kb).1.symm.trans hx)
    have hfinite := Usage.isFinite_of_rate hx
    rw [after_cons, tick_of_snapshot hs hd, List.append_cons]
    apply ih hg (history_showing_ne_nil g.now)
    · rw [List.forall_mem_append, List.forall_mem_singleton]
      exact ⟨hxs, hfinite⟩
    · rw [peak_showing, hrate]
      exact Peak.isGreatest_offer hpeak hxs hfinite g.now

/-- The peak of a dashboard that has been created starts from zero. -/
theorem isGreatest_peak_of_create {pid : UInt32} {intervalMs : UInt64} {n : Nat} {now : ClockTime}
    (h : create pid intervalMs n u now = .ok d) {glances : List Glance}
    (hg : ∀ g ∈ glances, g.HasSnapshot) (hd : ∀ side, d.history side ≠ []) {side : Side}
    {values : List Binary64} (hvalues : Observed glances side values) :
    IsGreatest {x | x ∈ 0 :: values} ((d.after glances).peak side).kb := by
  have hzero : (0 : Binary64).IsFinite := Binary64.isAmount_zero.isFinite
  have hpeak : IsGreatest {x | x ∈ [0]} (d.peak side).kb := by
    rw [peak_of_create h]
    exact hzero.isGreatest
  exact isGreatest_peak_after hg hd (List.forall_mem_singleton.mpr hzero) hpeak hvalues

/-- A peak never decreases. -/
theorem peak_le_peak_after {glances : List Glance} (hg : ∀ g ∈ glances, g.HasSnapshot)
    (hd : ∀ side, d.history side ≠ []) {side : Side} (hpeak : (d.peak side).kb.IsFinite) :
    (d.peak side).kb ≤ ((d.after glances).peak side).kb := by
  obtain ⟨values, hvalues, -⟩ := history_after hg hd side
  have hgreatest := isGreatest_peak_after hg hd (List.forall_mem_singleton.mpr hpeak)
    hpeak.isGreatest hvalues
  exact hgreatest.2 List.mem_cons_self

end Dashboard

/-- **Peaks are the running maxima.** Take a dashboard with histories of at least one entry, and let
samples come in and ticks happen in any order, no tick seeing a usage that overflows. Then the peak
of a counter is the greatest of zero and all rates that the ticks have seen. So no entry of the
history is above it, and it was never greater before. The next tick that does not overflow sets its
time anew exactly if the rate of the tick is above zero and above the rates of all ticks before; the
peak is that rate then, seen at that tick, and otherwise it is what it was. -/
theorem peaks_are_running_maxima {pid : UInt32} {intervalMs : UInt64} {n : Nat} (hn : 1 ≤ n)
    {u : Usage} {now₀ : ClockTime} {d : Dashboard}
    (hd : Dashboard.create pid intervalMs n u now₀ = .ok d) {steps : List Watch.Step}
    (hg : ∀ g ∈ u.glances steps, g.HasSnapshot) (side : Side) :
    let w := (Watch.mk d u).run steps
    ∃ values, Observed (u.glances steps) side values ∧
      IsGreatest {x | x ∈ 0 :: values} (w.dashboard.peak side).kb ∧
      (∀ x ∈ w.dashboard.history side, x ≤ (w.dashboard.peak side).kb) ∧
      (∀ earlier later, steps = earlier ++ later →
        (((Watch.mk d u).run earlier).dashboard.peak side).kb ≤ (w.dashboard.peak side).kb) ∧
      ∀ s, w.usage.snapshot = .ok s →
        let rate := s.recent.get side .kb
        (w.dashboard.Renews w.usage side ↔ ∀ x ∈ 0 :: values, x < rate) ∧
        ∀ now,
          let next := (w.dashboard.tick w.usage now).1.peak side
          (w.dashboard.Renews w.usage side → next = ⟨rate, now⟩) ∧
            (¬ w.dashboard.Renews w.usage side → next = w.dashboard.peak side) := by
  intro w
  have hne := Dashboard.history_ne_nil_of_create hd hn
  have hw : w.dashboard = d.after (u.glances steps) := (Watch.mk d u).run_dashboard steps
  obtain ⟨values, hvalues, hhistory⟩ := Dashboard.history_after hg hne side
  have hfinite : ∀ x ∈ 0 :: values, x.IsFinite :=
    List.forall_mem_cons.mpr ⟨Binary64.isAmount_zero.isFinite, hvalues.isFinite⟩
  have hgreatest : IsGreatest {x | x ∈ 0 :: values} (w.dashboard.peak side).kb := by
    rw [hw]
    exact Dashboard.isGreatest_peak_of_create hd hg hne hvalues
  refine ⟨values, hvalues, hgreatest, ?_, ?_, ?_⟩
  · intro x hx
    apply hgreatest.2
    rw [hw, hhistory, Dashboard.history_of_create hd] at hx
    rcases List.mem_append.mp (List.mem_of_mem_drop hx) with hzero | hrate
    · rw [List.eq_of_mem_replicate hzero]
      exact List.mem_cons_self
    · exact List.mem_cons_of_mem _ hrate
  · rintro earlier later rfl
    rw [Usage.glances_append, List.forall_mem_append] at hg
    obtain ⟨hearlier, hlater⟩ := hg
    rw [hw, Watch.run_dashboard, Usage.glances_append, Dashboard.after_append]
    apply Dashboard.peak_le_peak_after hlater (Dashboard.history_after_ne_nil hearlier hne)
    obtain ⟨values', hvalues', -⟩ := Dashboard.history_after hearlier hne side
    have hmem := (Dashboard.isGreatest_peak_of_create hd hearlier hne hvalues').1
    rcases List.mem_cons.mp hmem with hzero | hrate
    · exact hzero ▸ Binary64.isAmount_zero.isFinite
    · exact hvalues'.isFinite _ hrate
  · intro s hs rate
    have hne' : ∀ side, w.dashboard.history side ≠ [] := by
      rw [hw]
      exact Dashboard.history_after_ne_nil hg hne
    have hrate : rate.IsFinite := Usage.isFinite_of_rate (Usage.rate_of_snapshot hs side .kb).1
    have hrenews := Dashboard.renews_iff_lt hs hne' side
    refine ⟨hrenews.trans (Binary64.lt_iff_of_isGreatest hgreatest hfinite hrate), fun now => ?_⟩
    rw [hrenews, Dashboard.tick_of_snapshot hs hne', Dashboard.peak_showing]
    exact ⟨fun hlt => if_pos hlt, fun hnot => if_neg hnot⟩

/-- One entry and four ticks: the second and the third, in front of which the counter falls back,
see smaller rates, and the fourth sees the rate of the first again. The peak has the time of the
first, until a greater rate comes. -/
theorem peaks_are_running_maxima_of_tie :
    let steps : List Watch.Step :=
      [.sample ⟨1000, 2048, 0⟩, .tick ⟨1⟩, .sample ⟨2000, 3072, 0⟩, .tick ⟨2⟩,
        .sample ⟨3000, 0, 0⟩, .tick ⟨3⟩, .sample ⟨4000, 2048, 0⟩, .tick ⟨4⟩,
        .sample ⟨5000, 5120, 0⟩]
    let d : Dashboard := ⟨7, 1000, [0], [0], ⟨0, ⟨0⟩⟩, ⟨0, ⟨0⟩⟩,
      ⟨0, .initial, .ofKb 0 0, .ofKb 0 0⟩⟩
    let w := (Watch.mk d (.start 0)).run steps
    Dashboard.create 7 1000 1 (.start 0) ⟨0⟩ = .ok d ∧ w.dashboard.peak .read = ⟨2, ⟨1⟩⟩ ∧
      IsGreatest {x | x ∈ [0, 2, 1, 0, 2]} (w.dashboard.peak .read).kb ∧
      w.dashboard.Renews w.usage .read ∧
      (w.dashboard.tick w.usage ⟨5⟩).1.peak .read = ⟨3, ⟨5⟩⟩ ∧
      (w.dashboard.tick w.usage ⟨5⟩).1.peak .write = ⟨0, ⟨0⟩⟩ := by
  intro steps d w
  have hd : Dashboard.create 7 1000 1 (.start 0) ⟨0⟩ = .ok d := rfl
  have hseen : (Usage.start 0).glances steps =
      [⟨⟨0, ⟨.origin, ⟨1000, 2048, 0⟩⟩⟩, ⟨1⟩⟩, ⟨⟨0, ⟨⟨1000, 2048, 0⟩, ⟨2000, 3072, 0⟩⟩⟩, ⟨2⟩⟩,
        ⟨⟨0, ⟨⟨2000, 3072, 0⟩, ⟨3000, 0, 0⟩⟩⟩, ⟨3⟩⟩,
        ⟨⟨0, ⟨⟨3000, 0, 0⟩, ⟨4000, 2048, 0⟩⟩⟩, ⟨4⟩⟩] := by decide +kernel
  have hg : ∀ g ∈ (Usage.start 0).glances steps, g.HasSnapshot := by
    rw [hseen]
    simp only [List.forall_mem_cons]
    exact ⟨⟨_, rfl⟩, ⟨_, rfl⟩, ⟨_, rfl⟩, ⟨_, rfl⟩, List.forall_mem_nil _⟩
  have hone : perSecond 1024 1000 = 1 := by decide +kernel
  have htwo : perSecond 2048 1000 = 2 := by decide +kernel
  have hobserved : Observed ((Usage.start 0).glances steps) .read [2, 1, 0, 2] := by
    rw [hseen]
    exact .cons (congrArg Except.ok htwo) (.cons (congrArg Except.ok hone)
      (.cons rfl (.cons (congrArg Except.ok htwo) .nil)))
  have husage : w.usage = ⟨0, ⟨⟨4000, 2048, 0⟩, ⟨5000, 5120, 0⟩⟩⟩ := by decide +kernel
  obtain ⟨s, hs, hread, hwrite⟩ :
      ∃ s, w.usage.snapshot = .ok s ∧ s.recent.readKb = 3 ∧ s.recent.writeKb = 0 := by
    rw [husage]
    exact ⟨_, rfl, by decide +kernel, by decide +kernel⟩
  obtain ⟨values, hvalues, hgreatest, -, -, hnext⟩ :=
    peaks_are_running_maxima (by decide) hd hg .read
  obtain rfl := hvalues.unique hobserved
  obtain ⟨hrenews, hpeak⟩ := hnext s hs
  have hread' : w.dashboard.Renews w.usage .read := by
    rw [hrenews, show s.recent.get .read .kb = 3 from hread]
    decide +kernel
  obtain ⟨values', -, -, -, -, hnext'⟩ := peaks_are_running_maxima (by decide) hd hg .write
  obtain ⟨hrenews', hpeak'⟩ := hnext' s hs
  have hwrite' : ¬ w.dashboard.Renews w.usage .write := by
    rw [hrenews', show s.recent.get .write .kb = 0 from hwrite]
    intro hpos
    exact absurd (hpos 0 List.mem_cons_self) (by decide +kernel)
  refine ⟨hd, by decide +kernel, hgreatest, hread', ?_, ?_⟩
  · exact ((hpeak ⟨5⟩).1 hread').trans (congrArg (Peak.mk · ⟨5⟩) hread)
  · exact ((hpeak' ⟨5⟩).2 hwrite').trans (by decide +kernel)

end IoWatch
