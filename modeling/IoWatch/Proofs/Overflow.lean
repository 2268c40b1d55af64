import IoWatch.Usage

/-!
# Differences of words that are not negative

The difference of two words that are not negative is a word. So a usage without negative fields has
all of its rates. Where rates are missing, a difference was no word.

## Main definitions

* `Sample.IsNonneg`, `Window.IsNonneg`, `Usage.IsNonneg`: no field is negative
* `OnlyOverflows`: a computation aborts for no other reason than overflow

## Main results

* `difference_of_nonneg`: such a difference does not abort
* `Usage.snapshot_of_nonneg`: such a usage has a snapshot
* `Usage.snapshot_eq_ok_iff`: what a snapshot holds
* `Usage.onlyOverflows_snapshot`: why there is none
-/

namespace IoWatch

/-- The difference of two words that are not negative is a word: neither is above the largest one,
so their difference is above the least one. -/
theorem difference_of_nonneg {a b : Int64} (ha : 0 ≤ a) (hb : 0 ≤ b) :
    difference a b = .ok (Int64.ofInt (a.toInt - b.toInt)) := by
  rw [Int64.le_iff_toInt_le, Int64.toInt_zero] at ha hb
  have hword : IsWord (a.toInt - b.toInt) := by
    have hmax := a.toInt_le
    have hmax' := b.toInt_le
    have hbounds : Int64.minValue.toInt = -Int64.maxValue.toInt - 1 := by decide
    unfold IsWord
    omega
  simp [difference, hword]

theorem difference_of_not_isWord {a b : Int64} (h : ¬ IsWord (a.toInt - b.toInt)) :
    difference a b = .error .overflow := if_neg h

/-! ## Rates -/

theorem deltaRate_of_nonneg {prevMs currMs prevBytes currBytes : Int64} (hprev : 0 ≤ prevMs)
    (hcurr : 0 ≤ currMs) (hprev' : 0 ≤ prevBytes) (hcurr' : 0 ≤ currBytes) :
    ∃ rate, deltaRate prevMs currMs prevBytes currBytes = .ok rate := by
  unfold deltaRate
  split
  · exact ⟨_, rfl⟩
  · rw [difference_of_nonneg hcurr' hprev', difference_of_nonneg hcurr hprev]
    exact ⟨_, rfl⟩

theorem lifetimeRate_of_nonneg {sinceMs currMs : Int64} (hsince : 0 ≤ sinceMs) (hcurr : 0 ≤ currMs)
    (currBytes : Int64) : ∃ rate, lifetimeRate sinceMs currMs currBytes = .ok rate := by
  unfold lifetimeRate
  split
  · exact ⟨_, rfl⟩
  · rw [difference_of_nonneg hcurr hsince]
    exact ⟨_, rfl⟩

/-- No field of a sample is negative. -/
structure Sample.IsNonneg (s : Sample) : Prop where
  timestampMs : 0 ≤ s.timestampMs
  readBytes : 0 ≤ s.readBytes
  writeBytes : 0 ≤ s.writeBytes

/-- No field of a window is negative. -/
structure Window.IsNonneg (w : Window) : Prop where
  previous : w.previous.IsNonneg
  current : w.current.IsNonneg

/-- No field of a usage is negative. -/
structure Usage.IsNonneg (u : Usage) : Prop where
  sinceMs : 0 ≤ u.sinceMs
  window : u.window.IsNonneg

theorem Sample.isNonneg_origin : origin.IsNonneg := ⟨by decide, by decide, by decide⟩

theorem Usage.isNonneg_start {sinceMs : Int64} (h : 0 ≤ sinceMs) : (start sinceMs).IsNonneg :=
  ⟨h, Sample.isNonneg_origin, Sample.isNonneg_origin⟩

/-- A usage takes in what is not negative, and nothing of what is unreadable. -/
theorem Usage.IsNonneg.update {u : Usage} (h : u.IsNonneg) {x : Sample}
    (hx : x.isUnreadable = false → x.IsNonneg) : (u.update x).IsNonneg := by
  refine ⟨h.sinceMs, ?_⟩
  rw [update_window]
  cases hreadable : x.isUnreadable with
  | true => rw [Window.advance_of_unreadable hreadable]; exact h.window
  | false => rw [Window.advance_of_readable hreadable]; exact ⟨h.window.current, hx hreadable⟩

theorem Usage.IsNonneg.updateAll {u : Usage} (h : u.IsNonneg) {samples : List Sample}
    (hsamples : ∀ x ∈ samples, x.isUnreadable = false → x.IsNonneg) :
    (u.updateAll samples).IsNonneg := by
  induction samples generalizing u with
  | nil => exact h
  | cons x samples ih =>
    rw [List.forall_mem_cons] at hsamples
    exact ih (h.update hsamples.1) hsamples.2

namespace Rates

theorem recent_of_nonneg {w : Window} (h : w.IsNonneg) : ∃ rates, recent w = .ok rates := by
  obtain ⟨read, hread⟩ := deltaRate_of_nonneg h.previous.timestampMs h.current.timestampMs
    h.previous.readBytes h.current.readBytes
  obtain ⟨write, hwrite⟩ := deltaRate_of_nonneg h.previous.timestampMs h.current.timestampMs
    h.previous.writeBytes h.current.writeBytes
  refine ⟨ofKb read write, ?_⟩
  simp only [recent, hread, hwrite]
  rfl

theorem lifetime_of_nonneg {sinceMs : Int64} {w : Window} (hsince : 0 ≤ sinceMs)
    (h : w.IsNonneg) : ∃ rates, lifetime sinceMs w = .ok rates := by
  obtain ⟨read, hread⟩ := lifetimeRate_of_nonneg hsince h.current.timestampMs w.current.readBytes
  obtain ⟨write, hwrite⟩ := lifetimeRate_of_nonneg hsince h.current.timestampMs w.current.writeBytes
  refine ⟨ofKb read write, ?_⟩
  simp only [lifetime, hread, hwrite]
  rfl

end Rates

/-! ## Snapshots -/

namespace Usage

/-- A snapshot holds the start, the window and the rates of that same window. -/
theorem snapshot_eq_ok_iff {u : Usage} {s : Snapshot} :
    u.snapshot = .ok s ↔
      s.sinceMs = u.sinceMs ∧ s.window = u.window ∧ Rates.recent u.window = .ok s.recent ∧
        Rates.lifetime u.sinceMs u.window = .ok s.lifetime := by
  obtain ⟨sinceMs, window, recent, lifetime⟩ := s
  simp only [snapshot, rates]
  constructor
  · intro h
    cases hr : Rates.recent u.window with
    | error reason => simp [hr, bind, Except.bind] at h
    | ok recent =>
      cases hl : Rates.lifetime u.sinceMs u.window with
      | error reason => simp [hr, hl, bind, Except.bind] at h
      | ok lifetime => simp_all [bind, Except.bind, pure, Except.pure]
  · rintro ⟨rfl, rfl, hr, hl⟩
    rw [hr, hl]
    rfl

theorem snapshot_of_nonneg {u : Usage} (h : u.IsNonneg) : ∃ s, u.snapshot = .ok s := by
  obtain ⟨recent, hrecent⟩ := Rates.recent_of_nonneg h.window
  obtain ⟨lifetime, hlifetime⟩ := Rates.lifetime_of_nonneg h.sinceMs h.window
  exact ⟨⟨u.sinceMs, u.window, recent, lifetime⟩,
    snapshot_eq_ok_iff.mpr ⟨rfl, rfl, hrecent, hlifetime⟩⟩

end Usage

/-! ## The only reason -/

/-- A computation aborts for no other reason than overflow. -/
def OnlyOverflows {α : Type} (x : Except Abort α) : Prop :=
  ∀ reason, x = .error reason → reason = .overflow

namespace OnlyOverflows

variable {α β : Type}

theorem ok (a : α) : OnlyOverflows (.ok a) := fun _ h => by cases h

theorem bind {x : Except Abort α} {f : α → Except Abort β} (hx : OnlyOverflows x)
    (hf : ∀ a, OnlyOverflows (f a)) : OnlyOverflows (x >>= f) := by
  intro reason h
  cases x with
  | error reason' =>
    have h : (.error reason' : Except Abort β) = .error reason := h
    cases h
    exact hx reason rfl
  | ok a => exact hf a reason h

theorem difference (a b : Int64) : OnlyOverflows (IoWatch.difference a b) := by
  intro reason h
  simp only [IoWatch.difference] at h
  split at h <;> cases h
  rfl

theorem deltaRate (prevMs currMs prevBytes currBytes : Int64) :
    OnlyOverflows (IoWatch.deltaRate prevMs currMs prevBytes currBytes) := by
  unfold IoWatch.deltaRate
  split
  · exact ok 0
  · exact (difference _ _).bind fun bytes => (difference _ _).bind fun millis => ok _

theorem lifetimeRate (sinceMs currMs currBytes : Int64) :
    OnlyOverflows (IoWatch.lifetimeRate sinceMs currMs currBytes) := by
  unfold IoWatch.lifetimeRate
  split
  · exact ok 0
  · exact (difference _ _).bind fun millis => ok _

end OnlyOverflows

theorem Usage.onlyOverflows_snapshot (u : Usage) : OnlyOverflows u.snapshot := by
  refine OnlyOverflows.bind ?_ fun recent => OnlyOverflows.bind ?_ fun lifetime => .ok _
  · exact .bind (.deltaRate _ _ _ _) fun read => .bind (.deltaRate _ _ _ _) fun write => .ok _
  · exact .bind (.lifetimeRate _ _ _) fun read => .bind (.lifetimeRate _ _ _) fun write => .ok _

end IoWatch
