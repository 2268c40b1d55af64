import IoWatch.Proofs.Watching

/-!
# Ticks that fail

A tick takes a snapshot before it changes anything. So a tick that gets none fails with nothing
done, and the ticks behind it go on as if it had not happened. A dashboard without a history fails
at every tick that does get one, when the snapshot has been replaced and nothing else.

## Main definitions

* `overflows`: whether a computation ended in an overflow
* `Dashboard.transcript`: what each tick of a list leaves, and how it ends

## Main results

* `Dashboard.tick_cases`, `Dashboard.tick_cases_of_nil`: how a tick ends, with a history and without
  one
* `Dashboard.after_filter`, `Dashboard.transcript_filter`: ticks that overflow leave no trace
* `failed_ticks_leave_no_trace`: all of it, after any ticks
-/

namespace IoWatch

/-- Whether a computation ended in an overflow. -/
def overflows {α : Type} : Except Abort α → Bool
  | .error .overflow => true
  | _ => false

theorem overflows_eq_true_iff {α : Type} {x : Except Abort α} :
    overflows x = true ↔ x = .error .overflow := by
  rcases x with (_ | _ | _) | a <;> simp [overflows]

/-- A usage that has no snapshot overflows. -/
theorem Usage.snapshot_cases (u : Usage) :
    (∃ s, u.snapshot = .ok s) ∨ u.snapshot = .error .overflow := by
  cases hs : u.snapshot with
  | ok s => exact .inl ⟨s, rfl⟩
  | error reason => rw [u.onlyOverflows_snapshot reason hs]; exact .inr rfl

instance (g : Glance) : Decidable g.HasSnapshot :=
  match h : g.usage.snapshot with
  | .ok s => .isTrue ⟨s, h⟩
  | .error reason => .isFalse fun ⟨s, hs⟩ => by rw [h] at hs; cases hs

theorem Glance.not_hasSnapshot_iff {g : Glance} :
    ¬ g.HasSnapshot ↔ g.usage.snapshot = .error .overflow := by
  constructor
  · exact g.usage.snapshot_cases.resolve_left
  · rintro h ⟨s, hs⟩
    rw [h] at hs
    cases hs

namespace Dashboard

/-- What each tick of a list leaves, and how it ends. -/
def transcript (d : Dashboard) : List Glance → List (Dashboard × Except Abort Unit)
  | [] => []
  | g :: glances => d.tick g.usage g.now :: (d.tick g.usage g.now).1.transcript glances

section Tick

variable {d : Dashboard} {u : Usage} {s : Snapshot}

/-- A tick of a dashboard with a history completes, or it overflows and changes nothing. -/
theorem tick_cases (hd : ∀ side, d.history side ≠ []) (u : Usage) (now : ClockTime) :
    (∃ s, u.snapshot = .ok s ∧ d.tick u now = (d.showing s now, .ok ())) ∨
      u.snapshot = .error .overflow ∧ d.tick u now = (d, .error .overflow) := by
  rcases u.snapshot_cases with ⟨s, hs⟩ | hu
  · exact .inl ⟨s, hs, tick_of_snapshot hs hd now⟩
  · exact .inr ⟨hu, tick_of_abort hu now⟩

/-- A tick of a dashboard without one never completes: it replaces the snapshot, or it overflows and
changes nothing. -/
theorem tick_cases_of_nil (hd : d.readHistory = []) (u : Usage) (now : ClockTime) :
    (∃ s, u.snapshot = .ok s ∧ d.tick u now = ({ d with snapshot := s }, .error .emptyHistory)) ∨
      u.snapshot = .error .overflow ∧ d.tick u now = (d, .error .overflow) := by
  rcases u.snapshot_cases with ⟨s, hs⟩ | hu
  · exact .inl ⟨s, hs, tick_of_nil hs hd now⟩
  · exact .inr ⟨hu, tick_of_abort hu now⟩

/-- Nothing behind the snapshot overflows, whatever the histories are. -/
theorem tick_ne_overflow (hs : u.snapshot = .ok s) (now : ClockTime) :
    (d.tick u now).2 ≠ .error .overflow := by
  obtain ⟨pid, intervalMs, readHistory, writeHistory, readPeak, writePeak, snapshot⟩ := d
  cases readHistory with
  | nil => simp [tick, hs, roll]
  | cons => cases writeHistory <;> simp [tick, hs, roll]

end Tick

/-! ## Ticks in a row -/

variable (d : Dashboard) (glances : List Glance)

/-- Ticks that get no snapshot might as well not happen. -/
theorem after_filter : d.after (glances.filter (·.HasSnapshot)) = d.after glances := by
  induction glances generalizing d with
  | nil => rfl
  | cons g glances ih =>
    by_cases hg : g.HasSnapshot
    · rw [List.filter_cons_of_pos (by simpa using hg), after_cons, after_cons, ih]
    · rw [List.filter_cons_of_neg (by simpa using hg), after_cons,
        tick_of_abort (Glance.not_hasSnapshot_iff.mp hg), ih]

/-- The other ticks leave what they leave without them, and end as they do. -/
theorem transcript_filter :
    (d.transcript glances).filter (fun t => !overflows t.2) =
      d.transcript (glances.filter (·.HasSnapshot)) := by
  induction glances generalizing d with
  | nil => rfl
  | cons g glances ih =>
    rw [transcript]
    by_cases hg : g.HasSnapshot
    · obtain ⟨s, hs⟩ := hg
      have hne : ¬ overflows (d.tick g.usage g.now).2 = true := by
        rw [overflows_eq_true_iff]
        exact tick_ne_overflow hs g.now
      rw [List.filter_cons_of_pos (by simpa using hne),
        List.filter_cons_of_pos (by simpa using ⟨s, hs⟩), transcript, ih]
    · have htick : d.tick g.usage g.now = (d, .error .overflow) :=
        tick_of_abort (Glance.not_hasSnapshot_iff.mp hg) g.now
      rw [htick, List.filter_cons_of_neg (by simp [overflows]),
        List.filter_cons_of_neg (by simpa using hg), ih]

variable {d}

theorem history_after_ne_nil_of_any (hd : ∀ side, d.history side ≠ []) (side : Side) :
    (d.after glances).history side ≠ [] := by
  rw [← after_filter]
  apply history_after_ne_nil _ hd
  intro g hg
  simpa using (List.mem_filter.mp hg).2

theorem readHistory_after_of_nil (hd : d.readHistory = []) :
    (d.after glances).readHistory = [] := by
  induction glances generalizing d with
  | nil => exact hd
  | cons g glances ih =>
    rw [after_cons]
    apply ih
    rcases tick_cases_of_nil hd g.usage g.now with ⟨s, -, htick⟩ | ⟨-, htick⟩
    · rw [htick]
      exact hd
    · rw [htick]
      exact hd

end Dashboard

/-- **Ticks that fail leave no trace.** Take a dashboard with histories of any length, and any ticks
of it, some of which may have failed. If the histories have entries, the next tick completes if the
usage has a snapshot; if not, it overflows, and everything is as it was before. Of all ticks, those
that do not overflow leave what they leave without the others, and end as they do without them. If
the histories have no entries, a tick that gets a snapshot always fails, having replaced the one
that is shown and changed nothing else. -/
theorem failed_ticks_leave_no_trace {pid : UInt32} {intervalMs : UInt64} {n : Nat} {u₀ : Usage}
    {now₀ : ClockTime} {d₀ : Dashboard}
    (h : Dashboard.create pid intervalMs n u₀ now₀ = .ok d₀) (glances : List Glance) :
    let d := d₀.after glances
    (1 ≤ n → ∀ u now,
      (∃ s, u.snapshot = .ok s ∧ d.tick u now = (d.showing s now, .ok ())) ∨
        u.snapshot = .error .overflow ∧ d.tick u now = (d, .error .overflow)) ∧
    d = d₀.after (glances.filter (·.HasSnapshot)) ∧
    (d₀.transcript glances).filter (fun t => !overflows t.2) =
      d₀.transcript (glances.filter (·.HasSnapshot)) ∧
    (n = 0 → ∀ u now s, u.snapshot = .ok s →
      d.tick u now = ({ d with snapshot := s }, .error .emptyHistory)) := by
  intro d
  refine ⟨fun hn => ?_, (Dashboard.after_filter d₀ glances).symm, d₀.transcript_filter glances,
    fun hn u now s hs => ?_⟩
  · apply Dashboard.tick_cases
    apply Dashboard.history_after_ne_nil_of_any
    exact Dashboard.history_ne_nil_of_create h hn
  · apply Dashboard.tick_of_nil hs
    apply Dashboard.readHistory_after_of_nil
    rw [show d₀.readHistory = _ from Dashboard.history_of_create h .read, hn, List.replicate_zero]

/-- A tick completes, the next one overflows and so does the one after it. Without a history the
first one fails, too. -/
theorem failed_ticks_leave_no_trace_of_overflow :
    let gone : Usage := ⟨0, ⟨⟨0, Int64.minValue, 0⟩, ⟨1, 0, 0⟩⟩⟩
    let seen : Glance := ⟨⟨0, ⟨.origin, ⟨1000, 2048, 1024⟩⟩⟩, ⟨1⟩⟩
    let d₀ : Dashboard := ⟨7, 1000, [0, 0], [0, 0], ⟨0, ⟨0⟩⟩, ⟨0, ⟨0⟩⟩,
      ⟨0, .initial, .ofKb 0 0, .ofKb 0 0⟩⟩
    let e₀ : Dashboard := { d₀ with readHistory := [], writeHistory := [] }
    let d := d₀.after [seen, ⟨gone, ⟨2⟩⟩]
    Dashboard.create 7 1000 2 (.start 0) ⟨0⟩ = .ok d₀ ∧ d = d₀.after [seen] ∧
      d.readHistory = [0, 2] ∧ d.tick gone ⟨3⟩ = (d, .error .overflow) ∧
      Dashboard.create 7 1000 0 (.start 0) ⟨0⟩ = .ok e₀ ∧
      ∃ s, seen.usage.snapshot = .ok s ∧
        e₀.tick seen.usage ⟨1⟩ = ({ e₀ with snapshot := s }, .error .emptyHistory) := by
  intro gone seen d₀ e₀ d
  have hgone : gone.snapshot = .error .overflow := overflows_eq_true_iff.mp (by decide +kernel)
  obtain ⟨s, hs⟩ : ∃ s, seen.usage.snapshot = .ok s := ⟨_, rfl⟩
  have hd₀ : Dashboard.create 7 1000 2 (.start 0) ⟨0⟩ = .ok d₀ := rfl
  have he₀ : Dashboard.create 7 1000 0 (.start 0) ⟨0⟩ = .ok e₀ := rfl
  obtain ⟨htick, hafter, -⟩ := failed_ticks_leave_no_trace hd₀ [seen, ⟨gone, ⟨2⟩⟩]
  obtain ⟨-, -, -, hnil⟩ := failed_ticks_leave_no_trace he₀ []
  have hread : d.readHistory = [0, 2] := by decide +kernel
  have hleaves : [seen, ⟨gone, ⟨2⟩⟩].filter (·.HasSnapshot) = [seen] := by
    have hseen : seen.HasSnapshot := ⟨s, hs⟩
    have hnone : ¬ Glance.HasSnapshot ⟨gone, ⟨2⟩⟩ := Glance.not_hasSnapshot_iff.mpr hgone
    rw [List.filter_cons_of_pos, List.filter_cons_of_neg, List.filter_nil]
    · exact fun h => hnone (of_decide_eq_true h)
    · exact decide_eq_true hseen
  refine ⟨hd₀, hafter.trans (congrArg d₀.after hleaves), hread, ?_, he₀, s, hs,
    hnil rfl seen.usage ⟨1⟩ s hs⟩
  rcases htick (by decide) gone ⟨3⟩ with ⟨s, hs, -⟩ | ⟨-, hfails⟩
  · rw [hgone] at hs
    cases hs
  · exact hfails

end IoWatch
