import IoWatch.Proofs.LastTwo
import IoWatch.Proofs.Watching

/-!
# The histories slide

A history starts with zeros and takes one rate for each tick, at the cost of its oldest entry. So it
always holds the end of the same list: the zeros, and behind them the rates that the ticks have seen.
Everything else that a dashboard shows belongs to the one window of its last tick.

## Main definitions

* `Observed glances side values`: the rates of a counter that ticks have seen
* `Dashboard.Shows`: what a dashboard shows is what a usage answers

## Main results

* `Dashboard.history_after`: a history after a list of ticks
* `Dashboard.shows_after`: what is shown after a list of ticks
* `Usage.glances_of_replaced`: no tick sees a sample that has left the window
* `history_slides`: all of it over every run
-/

namespace IoWatch

/-! ## Histories -/

/-- The rates of a counter that ticks have seen, in kilobytes per second, oldest first. -/
def Observed (glances : List Glance) (side : Side) (values : List Binary64) : Prop :=
  List.Forall₂ (fun g x => g.usage.rate .recent side .kb = .ok x) glances values

namespace Dashboard

/-- Ticks that see snapshots put the rates that they see behind a history, and drop as many entries
from its front. The first one drops the first entry, and the others drop theirs behind it. -/
theorem history_after {d : Dashboard} {glances : List Glance}
    (hg : ∀ g ∈ glances, g.HasSnapshot) (hd : ∀ side, d.history side ≠ []) (side : Side) :
    ∃ values, Observed glances side values ∧
      (d.after glances).history side = (d.history side ++ values).drop values.length := by
  induction glances generalizing d with
  | nil => exact ⟨[], .nil, by simp⟩
  | cons g glances ih =>
    obtain ⟨⟨s, hs⟩, hg⟩ := List.forall_mem_cons.mp hg
    obtain ⟨values, hvalues, hhistory⟩ := ih hg (history_showing_ne_nil g.now)
    refine ⟨s.recent.get side .kb :: values,
      .cons (Usage.rate_of_snapshot hs side .kb).1 hvalues, ?_⟩
    rw [after_cons, tick_of_snapshot hs hd, hhistory, history_showing]
    obtain ⟨oldest, rest, holdest⟩ := List.exists_cons_of_ne_nil (hd side)
    rw [holdest, List.tail_cons, List.append_assoc, List.length_cons]
    rfl

/-- What a dashboard shows is what a usage answers. -/
structure Shows (d : Dashboard) (u : Usage) : Prop where
  recent : u.rates .recent = .ok d.recent
  lifetime : u.rates .lifetime = .ok d.lifetime
  totals : d.totals = (u.window.current.readBytes, u.window.current.writeBytes)
  hasSample : d.hasSample = decide (0 < u.window.current.timestampMs)

theorem shows_of_snapshot {d : Dashboard} {u : Usage} (h : u.snapshot = .ok d.snapshot) :
    d.Shows u := by
  obtain ⟨-, hwindow, hrecent, hlifetime⟩ := Usage.snapshot_eq_ok_iff.mp h
  refine ⟨hrecent, hlifetime, ?_, ?_⟩
  · rw [totals, hwindow]
  · rw [hasSample, hwindow]

/-- The last tick of a list decides what is shown, and puts it at the end of the histories. -/
theorem after_concat_of_snapshot {d : Dashboard} {glances : List Glance} {g : Glance}
    (hg : ∀ g' ∈ glances ++ [g], g'.HasSnapshot) (hd : ∀ side, d.history side ≠ []) :
    g.usage.snapshot = .ok (d.after (glances ++ [g])).snapshot ∧
      ∀ side, ((d.after (glances ++ [g])).history side).getLast? =
        some ((d.after (glances ++ [g])).recent.get side .kb) := by
  rw [List.forall_mem_append, List.forall_mem_singleton] at hg
  obtain ⟨hearlier, s, hs⟩ := hg
  rw [after_append, after_cons, after_nil,
    tick_of_snapshot hs (history_after_ne_nil hearlier hd)]
  refine ⟨hs, fun side => ?_⟩
  rw [history_showing, List.getLast?_concat]
  rfl

/-- After a list of ticks the usage of the last one is shown, and the one of before if there was
none. -/
theorem shows_after {d : Dashboard} {u : Usage} {glances : List Glance}
    (hu : u.snapshot = .ok d.snapshot) (hg : ∀ g ∈ glances, g.HasSnapshot)
    (hd : ∀ side, d.history side ≠ []) :
    (d.after glances).Shows ((glances.getLast?.map Glance.usage).getD u) := by
  apply shows_of_snapshot
  rcases List.eq_nil_or_concat' glances with rfl | ⟨glances, g, rfl⟩
  · exact hu
  · rw [List.getLast?_concat]
    exact (after_concat_of_snapshot hg hd).1

end Dashboard

/-! ## Samples that no tick sees -/

/-- Two readable samples replace whatever a window holds. -/
theorem Window.advanceAll_eq_of_two_le {samples : List Sample}
    (h : 2 ≤ (Sample.readable samples).length) (w w' : Window) :
    w.advanceAll samples = w'.advanceAll samples := by
  rw [← w.advanceAll_readable, ← w'.advanceAll_readable]
  have hmem : ∀ x ∈ Sample.readable samples, x.isUnreadable = false :=
    fun x => Sample.isUnreadable_of_mem_readable
  generalize Sample.readable samples = xs at h hmem ⊢
  rcases List.eq_nil_or_concat' xs with rfl | ⟨xs, y, rfl⟩
  · exact absurd h (by simp)
  rcases List.eq_nil_or_concat' xs with rfl | ⟨xs, x, rfl⟩
  · exact absurd h (by simp)
  have hx := hmem x (by simp)
  have hy := hmem y (by simp)
  rw [advanceAll_concat_concat w xs hx hy, advanceAll_concat_concat w' xs hx hy]

namespace Usage

/-- A sample is forgotten at once if it is unreadable, and else when two readable ones have come. -/
theorem updateAll_of_replaced (u : Usage) {x : Sample} {samples : List Sample}
    (h : x.isUnreadable = true ∨ 2 ≤ (Sample.readable samples).length) :
    (u.update x).updateAll samples = u.updateAll samples := by
  rcases h with hx | htwo
  · rw [update, Window.advance_of_unreadable hx]
  · have hwindow : ((u.update x).updateAll samples).window = (u.updateAll samples).window := by
      rw [updateAll_window, updateAll_window]
      exact Window.advanceAll_eq_of_two_le htwo _ _
    have hsince : ((u.update x).updateAll samples).sinceMs = (u.updateAll samples).sinceMs := by
      rw [updateAll_sinceMs, updateAll_sinceMs, update_sinceMs]
    generalize (u.update x).updateAll samples = v at hwindow hsince ⊢
    generalize u.updateAll samples = v' at hwindow hsince ⊢
    exact congrArg₂ Usage.mk hsince hwindow

/-- No tick sees a sample that is replaced before it. -/
theorem glances_of_replaced (u : Usage) {x : Sample} {between : List Sample}
    (h : x.isUnreadable = true ∨ 2 ≤ (Sample.readable between).length)
    (before later : List Watch.Step) :
    u.glances (before ++ .sample x :: (between.map .sample ++ later)) =
      u.glances (before ++ (between.map .sample ++ later)) := by
  rw [glances_append, glances_append u before]
  congr 1
  show ((u.updateAll (Watch.samples before)).update x).glances (between.map .sample ++ later) = _
  rw [glances_append, glances_append, glances_map_sample, glances_map_sample,
    Watch.samples_map_sample, updateAll_of_replaced _ h]

end Usage

/-- **The histories slide.** There is a dashboard for every usage that has a snapshot. Let its
histories have `n` entries, at least one, and let samples come in and ticks happen in any order, no
tick seeing a usage that overflows. Then every tick completes. Each history consists of the last `n`
entries of `n` zeros and the rates that the ticks have seen, oldest first, so it always has `n`
entries. The rates, the totals and whether there was a sample are those of one window, the one of the
last tick, or of the start if there was none; after a tick the newest entry of each history is the
rate that is shown. A sample that two readable ones replace before the next tick might as well not
have come, and so might an unreadable one. -/
theorem history_slides (pid : UInt32) (intervalMs : UInt64) {n : Nat} (hn : 1 ≤ n) (u : Usage)
    (now : ClockTime) :
    (∀ reason, Dashboard.create pid intervalMs n u now = .error reason ↔
      u.snapshot = .error reason) ∧
    ∀ d, Dashboard.create pid intervalMs n u now = .ok d →
      ∀ steps, (∀ g ∈ u.glances steps, g.HasSnapshot) →
        let w : Watch := ⟨d, u⟩
        let seen := u.glances steps
        let after := (w.run steps).dashboard
        w.Completes steps ∧
        (∀ side, ∃ values, Observed seen side values ∧
          after.history side = (List.replicate n 0 ++ values).rtake n ∧
          (after.history side).length = n) ∧
        after.Shows ((seen.getLast?.map Glance.usage).getD u) ∧
        (seen ≠ [] → ∀ side, (after.history side).getLast? = some (after.recent.get side .kb)) ∧
        ∀ before x between later,
          steps = before ++ .sample x :: (between.map .sample ++ later) →
          x.isUnreadable = true ∨ 2 ≤ (Sample.readable between).length →
          (w.run (before ++ (between.map .sample ++ later))).dashboard = after := by
  refine ⟨fun reason => Dashboard.create_eq_error_iff, ?_⟩
  intro d hd steps hg w seen after
  obtain ⟨s, hs⟩ : ∃ s, u.snapshot = .ok s := by
    cases h : u.snapshot with
    | ok s => exact ⟨s, rfl⟩
    | error reason =>
      rw [Dashboard.create_eq_error_iff.mpr h] at hd
      cases hd
  rw [Dashboard.create_of_snapshot hs] at hd
  obtain rfl := Except.ok.inj hd
  have hzeros : ∀ side, w.dashboard.history side = List.replicate n 0 := by
    intro side
    cases side <;> rfl
  have hne : ∀ side, w.dashboard.history side ≠ [] := by
    intro side
    rw [hzeros, ne_eq, List.replicate_eq_nil_iff]
    omega
  have hafter : after = w.dashboard.after seen := w.run_dashboard steps
  refine ⟨Watch.completes_of_snapshots hne hg, ?_, ?_, ?_, ?_⟩
  · intro side
    obtain ⟨values, hvalues, hhistory⟩ := Dashboard.history_after hg hne side
    refine ⟨values, hvalues, ?_, ?_⟩
    · rw [hafter, hhistory, hzeros, List.rtake, List.length_append, List.length_replicate,
        Nat.add_sub_cancel_left]
    · rw [hafter, Dashboard.length_history_after hg hne, hzeros, List.length_replicate]
  · rw [hafter]
    exact Dashboard.shows_after hs hg hne
  · intro hseen side
    obtain hnil | ⟨glances, g, hconcat⟩ := List.eq_nil_or_concat' seen
    · exact absurd hnil hseen
    rw [hafter, hconcat]
    rw [show u.glances steps = glances ++ [g] from hconcat] at hg
    exact (Dashboard.after_concat_of_snapshot hg hne).2 side
  · rintro before x between later rfl hreplaced
    rw [hafter, Watch.run_dashboard]
    exact congrArg _ (u.glances_of_replaced hreplaced before later).symm

/-- Three entries and two ticks. In front of the second tick a sample comes and goes, and one that is
unreadable comes. -/
theorem history_slides_of_three :
    let u := Usage.start 0
    let before : List Watch.Step := [.sample ⟨1000, 2048, 1024⟩, .tick ⟨1⟩]
    let between : List Sample :=
      [⟨1000, 2048, 1024⟩, ⟨1700, Int64.minValue, Int64.minValue⟩, ⟨2000, 3072, 1024⟩]
    let later : List Watch.Step := [.tick ⟨2⟩]
    let steps := before ++ .sample ⟨1500, 9, 9⟩ :: (between.map .sample ++ later)
    let d : Dashboard := ⟨7, 1000, [0, 0, 0], [0, 0, 0], ⟨0, ⟨0⟩⟩, ⟨0, ⟨0⟩⟩,
      ⟨0, .initial, .ofKb 0 0, .ofKb 0 0⟩⟩
    let after := ((Watch.mk d u).run steps).dashboard
    Dashboard.create 7 1000 3 u ⟨0⟩ = .ok d ∧ (Watch.mk d u).Completes steps ∧
      after.readHistory = [0, 2, 1] ∧ after.recent.readKb = 1 ∧
      ((Watch.mk d u).run (before ++ (between.map .sample ++ later))).dashboard = after := by
  intro u before between later steps d after
  have hd : Dashboard.create 7 1000 3 u ⟨0⟩ = .ok d := rfl
  have hseen : u.glances steps =
      [⟨⟨0, ⟨.origin, ⟨1000, 2048, 1024⟩⟩⟩, ⟨1⟩⟩,
        ⟨⟨0, ⟨⟨1000, 2048, 1024⟩, ⟨2000, 3072, 1024⟩⟩⟩, ⟨2⟩⟩] := by decide +kernel
  have hg : ∀ g ∈ u.glances steps, g.HasSnapshot := by
    rw [hseen]
    exact List.forall_mem_cons.mpr ⟨⟨_, rfl⟩, List.forall_mem_singleton.mpr ⟨_, rfl⟩⟩
  obtain ⟨hcompletes, -, -, hnewest, hreplaced⟩ :=
    (history_slides 7 1000 (by decide) u ⟨0⟩).2 d hd steps hg
  have hhistory : after.readHistory = [0, 2, 1] := by decide +kernel
  have hrecent := hnewest (List.cons_ne_nil _ _) .read
  rw [show (after.history .read).getLast? = some 1 from congrArg List.getLast? hhistory] at hrecent
  refine ⟨hd, hcompletes, hhistory, (Option.some.inj hrecent).symm, ?_⟩
  exact hreplaced before _ between later rfl (.inr (by decide +kernel))

end IoWatch
