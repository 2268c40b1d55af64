import IoWatch.Proofs.Independence
import IoWatch.Proofs.JsonText
import IoWatch.Proofs.Magnitudes
import IoWatch.Proofs.NoOverflow

/-!
# Rates are sane numbers

A rate is a quotient of quotients of two words, each of them rounded. All words that are not zero
are between the same two powers of two, so every step stays far away from what is too large and from
what is rounded to zero. A rate is zero where it is set to zero, or where the counter itself is, and
nowhere else. So the text of a snapshot never has a `null` in place of a rate.

## Main definitions

* `Snapshot.rates`: the rates of a snapshot over a span
* `Usage.IsIdle`: no time passed in a span, or a counter did not grow in it

## Main results

* `isBetween_perSecond`: the range of a rate of bytes above zero
* `Usage.alone_of_isIdle`, `Usage.exists_alone_of_not_isIdle`: the two cases of a rate
* `Snapshot.null_notInfix_line`: a snapshot of finite rates is written without `null`
* `rates_are_sane`: all of it, for every usage without negative fields
-/

namespace IoWatch

/-! ## Ranges

The exponents count units of the least positive magnitude, of which one has `2 ^ 1074`. -/

theorem isBetween_bytesPerKb : bytesPerKb.IsBetween 1084 1084 := by
  rw [bytesPerKb, Binary64.ofNat_eq]
  exact Binary64.isBetween_ofInt (a := 10) (b := 10) (by decide) (by decide) (by decide)

theorem isBetween_kbPerMb : kbPerMb.IsBetween 1084 1084 := by
  rw [kbPerMb, Binary64.ofNat_eq]
  exact Binary64.isBetween_ofInt (a := 10) (b := 10) (by decide) (by decide) (by decide)

theorem isBetween_millisPerSec : millisPerSec.IsBetween 1083 1084 := by
  rw [millisPerSec, Binary64.ofNat_eq]
  exact Binary64.isBetween_ofInt (a := 9) (b := 10) (by decide) (by decide) (by decide)

/-- The range of a word that is above zero. -/
theorem isBetween_ofWord {w : Int64} (h : 0 < w.toInt) :
    (Binary64.ofInt w.toInt).IsBetween 1074 1137 := by
  have hle := w.toInt_lt
  exact Binary64.isBetween_ofInt (a := 0) (b := 63) h (Int.le_of_lt hle) (by decide)

theorem isBetween_kilobytes {bytes : Int64} (h : 0 < bytes.toInt) :
    (Binary64.ofInt bytes.toInt / bytesPerKb).IsBetween 1064 1127 :=
  (isBetween_ofWord h).div isBetween_bytesPerKb rfl rfl (by decide)

theorem isBetween_seconds {millis : Int64} (h : 0 < millis.toInt) :
    (Binary64.ofInt millis.toInt / millisPerSec).IsBetween 1064 1128 :=
  (isBetween_ofWord h).div isBetween_millisPerSec rfl rfl (by decide)

/-- The range of a rate of bytes above zero. -/
theorem isBetween_perSecond {bytes millis : Int64} (hbytes : 0 < bytes.toInt)
    (hmillis : 0 < millis.toInt) : (perSecond bytes millis).IsBetween 1010 1137 :=
  (isBetween_kilobytes hbytes).div (isBetween_seconds hmillis) rfl rfl (by decide)

/-- The rate of no bytes. -/
theorem perSecond_zero {millis : Int64} (hmillis : 0 < millis.toInt) : perSecond 0 millis = 0 := by
  rw [perSecond, Int64.toInt_zero, ← Int.natCast_zero, ← Binary64.ofNat_eq,
    Binary64.zero_div isBetween_bytesPerKb, Binary64.zero_div (isBetween_seconds hmillis)]

theorem isBetween_kbToMb {kb : Binary64} (h : kb.IsBetween 1010 1137) :
    (kbToMb kb).IsBetween 1000 1127 :=
  h.div isBetween_kbPerMb rfl rfl (by decide)

theorem kbToMb_zero : kbToMb 0 = 0 := Binary64.zero_div isBetween_kbPerMb

/-! ## The two cases of a rate -/

/-- The rates of a snapshot over a span. -/
def Snapshot.rates (s : Snapshot) : Span → Rates
  | .recent => s.recent
  | .lifetime => s.lifetime

/-- No time passed in a span, or a counter did not grow in it. Since the start a counter has grown
to its value. -/
def Usage.IsIdle (u : Usage) (side : Side) : Span → Prop
  | .recent =>
    u.window.current.timestampMs ≤ u.window.previous.timestampMs ∨
      u.window.current.bytes side ≤ u.window.previous.bytes side
  | .lifetime => u.window.current.timestampMs ≤ u.sinceMs ∨ u.window.current.bytes side = 0

instance (u : Usage) (side : Side) (span : Span) : Decidable (u.IsIdle side span) :=
  match span with
  | .recent => inferInstanceAs (Decidable (_ ∨ _))
  | .lifetime => inferInstanceAs (Decidable (_ ∨ _))

theorem Sample.IsNonneg.bytes {x : Sample} (h : x.IsNonneg) (side : Side) : 0 ≤ x.bytes side := by
  cases side with
  | read => exact h.readBytes
  | write => exact h.writeBytes

/-- The difference to a larger word is above zero. -/
theorem exists_difference_of_lt {a b : Int64} (ha : 0 ≤ a) (hb : 0 ≤ b) (h : ¬ a ≤ b) :
    ∃ d, difference a b = .ok d ∧ 0 < d.toInt := by
  obtain ⟨d, hd, hvalue⟩ := exists_difference_of_nonneg ha hb
  refine ⟨d, hd, ?_⟩
  rw [Int64.le_iff_toInt_le] at h
  omega

namespace Usage

variable {u : Usage} {side : Side} {span : Span}

/-- An idle counter has the rate zero. If time has passed, it is the quotient of a numerator that is
zero. -/
theorem alone_of_isIdle (hu : u.IsNonneg) (h : u.IsIdle side span) :
    u.alone side span = .ok 0 := by
  cases span with
  | recent => exact if_pos h
  | lifetime =>
    by_cases htime : u.window.current.timestampMs ≤ u.sinceMs
    · exact if_pos htime
    · obtain ⟨millis, hmillis, hpos⟩ :=
        exists_difference_of_lt hu.window.current.timestampMs hu.sinceMs htime
      have hbytes : u.window.current.bytes side = 0 := h.resolve_left htime
      rw [alone, lifetimeRate, if_neg htime, hmillis, hbytes]
      exact congrArg Except.ok (perSecond_zero hpos)

theorem exists_alone_of_not_isIdle (hu : u.IsNonneg) (h : ¬ u.IsIdle side span) :
    ∃ kb, u.alone side span = .ok kb ∧ kb.IsBetween 1010 1137 := by
  cases span with
  | recent =>
    obtain ⟨htime, hgrowth⟩ := not_or.mp h
    obtain ⟨bytes, hbytes, hbytes'⟩ := exists_difference_of_lt (hu.window.current.bytes side)
      (hu.window.previous.bytes side) hgrowth
    obtain ⟨millis, hmillis, hmillis'⟩ := exists_difference_of_lt
      hu.window.current.timestampMs hu.window.previous.timestampMs htime
    refine ⟨_, ?_, isBetween_perSecond hbytes' hmillis'⟩
    rw [alone, deltaRate, if_neg (not_or.mpr ⟨htime, hgrowth⟩), hbytes, hmillis]
    rfl
  | lifetime =>
    obtain ⟨htime, hne⟩ := not_or.mp h
    obtain ⟨millis, hmillis, hmillis'⟩ :=
      exists_difference_of_lt hu.window.current.timestampMs hu.sinceMs htime
    have hbytes : 0 < (u.window.current.bytes side).toInt := by
      have hnonneg := hu.window.current.bytes side
      have hne' : (u.window.current.bytes side).toInt ≠ 0 := fun h => hne (Int64.toInt_inj.mp h)
      rw [Int64.le_iff_toInt_le, Int64.toInt_zero] at hnonneg
      omega
    refine ⟨_, ?_, isBetween_perSecond hbytes hmillis'⟩
    rw [alone, lifetimeRate, if_neg htime, hmillis]
    rfl

/-- Both rates of a counter are zero, or both are in a range above zero. -/
theorem rate_cases (hu : u.IsNonneg) {rates : Rates} (h : u.rates span = .ok rates) (side : Side) :
    (u.IsIdle side span ∧ rates.get side .kb = 0 ∧ rates.get side .mb = 0) ∨
      (¬ u.IsIdle side span ∧ (rates.get side .kb).IsBetween 1010 1137 ∧
        (rates.get side .mb).IsBetween 1000 1127) := by
  obtain ⟨hkb, hmb⟩ := alone_of_rates h side
  by_cases hidle : u.IsIdle side span
  · left
    have hzero : rates.get side .kb = 0 :=
      Except.ok.inj (hkb.symm.trans (alone_of_isIdle hu hidle))
    exact ⟨hidle, hzero, by rw [hmb, hzero, kbToMb_zero]⟩
  · right
    obtain ⟨kb, hkb', hbetween⟩ := exists_alone_of_not_isIdle hu hidle
    have hrate : rates.get side .kb = kb := Except.ok.inj (hkb.symm.trans hkb')
    rw [hmb, hrate]
    exact ⟨hidle, hbetween, isBetween_kbToMb hbetween⟩

end Usage

/-! ## The text of a snapshot -/

namespace Json

theorem ne_of_isDigit {c : Char} (h : c.isDigit = true) : c ≠ 'l' := by
  rintro rfl
  exact absurd h (by decide)

theorem l_notMem_integerText (i : Int) : 'l' ∉ integerText i := fun h =>
  forall_mem_integerText (fun _ => ne_of_isDigit) (by decide) i 'l' h rfl

theorem l_notMem_numberText {x : Binary64} (h : x.IsFinite) : 'l' ∉ numberText x := by
  obtain ⟨s, m, e, c, rfl⟩ := h
  intro hmem
  rcases List.mem_append.mp hmem with hsign | htext
  · split at hsign
    · exact absurd (List.mem_singleton.mp hsign) (by decide)
    · cases hsign
  · exact forall_mem_text (fun _ => ne_of_isDigit) (by decide) (by decide) (by decide) _
      (by simp [numberLayout]) (by simp [numberLayout]) 'l' htext rfl

end Json

theorem Sample.l_notMem_render (s : Sample) : 'l' ∉ s.toJson.render := by
  simp [toJson, Json.render, Json.renderRest, Json.nameText, Json.l_notMem_integerText]

theorem Window.l_notMem_render (w : Window) : 'l' ∉ w.toJson.render := by
  simp [toJson, Json.render, Json.renderRest, Json.nameText, Sample.l_notMem_render]

theorem Rates.l_notMem_render {r : Rates} (h : ∀ side unit, (r.get side unit).IsFinite) :
    'l' ∉ r.toJson.render := by
  have hreadKb : r.readKb.IsFinite := h .read .kb
  have hreadMb : r.readMb.IsFinite := h .read .mb
  have hwriteKb : r.writeKb.IsFinite := h .write .kb
  have hwriteMb : r.writeMb.IsFinite := h .write .mb
  simp [toJson, Json.render, Json.renderRest, Json.nameText, Json.l_notMem_numberText, *]

theorem infix_append_iff_of_notMem {cs ds : List Char} (h : 'l' ∉ cs) :
    ['l', 'l'] <:+: cs ++ ds ↔ ['l', 'l'] <:+: ds := by
  induction cs with
  | nil => rfl
  | cons c cs ih =>
    rw [List.mem_cons, not_or] at h
    rw [List.cons_append, List.infix_cons_iff, ih h.2, List.cons_prefix_cons]
    simp [h.1]

/-- A snapshot of finite rates is written without `null`. Nothing else would need the letter twice
in a row, and it only stands in two names, alone in both of them. -/
theorem Snapshot.null_notInfix_line {s : Snapshot}
    (h : ∀ span side unit, ((s.rates span).get side unit).IsFinite) :
    ¬ "null".toList <:+: s.line := by
  have hrecent : 'l' ∉ s.recent.toJson.render := Rates.l_notMem_render (h .recent)
  have hlifetime : 'l' ∉ s.lifetime.toJson.render := Rates.l_notMem_render (h .lifetime)
  intro hnull
  have hdouble : ['l', 'l'] <:+: s.line := by
    refine List.IsInfix.trans ?_ hnull
    exact ⟨['n', 'u'], [], rfl⟩
  revert hdouble
  simp [line, toJson, Json.render, Json.renderRest, Json.nameText, List.infix_cons_iff,
    infix_append_iff_of_notMem, hrecent, hlifetime, Window.l_notMem_render,
    Json.l_notMem_integerText]

/-! ## All rates of a snapshot -/

/-- **The rates of a snapshot are sane numbers.** Take a start and a window without negative fields.
There is a snapshot, and all eight of its rates are finite and not negative. The rate of a counter
in kilobytes per second is zero exactly when no time passed in its span or the counter did not grow
in it, and otherwise it is above zero; and a rate in megabytes is zero exactly when the one in
kilobytes is. So the text of the snapshot has no `null` in it. -/
theorem rates_are_sane {u : Usage} (hu : u.IsNonneg) :
    ∃ s, u.snapshot = .ok s ∧
      (∀ span side unit, ((s.rates span).get side unit).IsAmount) ∧
      (∀ span side, (s.rates span).get side .kb = 0 ↔ u.IsIdle side span) ∧
      (∀ span side, ¬ u.IsIdle side span → 0 < (s.rates span).get side .kb) ∧
      (∀ span side, (s.rates span).get side .mb = 0 ↔ (s.rates span).get side .kb = 0) ∧
      ¬ "null".toList <:+: s.line := by
  obtain ⟨s, hs⟩ := Usage.snapshot_of_nonneg hu
  obtain ⟨-, -, hrecent, hlifetime⟩ := Usage.snapshot_eq_ok_iff.mp hs
  have hrates : ∀ span, u.rates span = .ok (s.rates span) := by
    intro span
    cases span with
    | recent => exact hrecent
    | lifetime => exact hlifetime
  have hamount : ∀ span side unit, ((s.rates span).get side unit).IsAmount := by
    intro span side unit
    rcases Usage.rate_cases hu (hrates span) side with ⟨-, hkb, hmb⟩ | ⟨-, hkb, hmb⟩
    · cases unit with
      | kb => exact hkb ▸ Binary64.isAmount_zero
      | mb => exact hmb ▸ Binary64.isAmount_zero
    · cases unit with
      | kb => exact hkb.isAmount
      | mb => exact hmb.isAmount
  refine ⟨s, hs, hamount, ?_, ?_, ?_,
    Snapshot.null_notInfix_line fun span side unit => (hamount span side unit).isFinite⟩
  · intro span side
    rcases Usage.rate_cases hu (hrates span) side with ⟨hidle, hkb, -⟩ | ⟨hbusy, hkb, -⟩
    · exact iff_of_true hkb hidle
    · exact iff_of_false hkb.ne_zero hbusy
  · intro span side hbusy
    rcases Usage.rate_cases hu (hrates span) side with ⟨hidle, -⟩ | ⟨-, hkb, -⟩
    · exact absurd hidle hbusy
    · exact hkb.pos
  · intro span side
    rcases Usage.rate_cases hu (hrates span) side with ⟨-, hkb, hmb⟩ | ⟨-, hkb, hmb⟩
    · exact iff_of_true hmb hkb
    · exact iff_of_false hmb.ne_zero hkb.ne_zero

/-- One byte is read in the longest time there is, and its rate is above zero in both units. A
counter that stands still where no word is larger has a rate since the start only. -/
theorem rates_are_sane_of_slowest :
    let u : Usage := ⟨0, ⟨⟨0, 0, Int64.maxValue⟩, ⟨Int64.maxValue, 1, Int64.maxValue⟩⟩⟩
    u.IsNonneg ∧ ∃ s, u.snapshot = .ok s ∧ 0 < s.recent.readKb ∧ s.recent.readMb ≠ 0 ∧
      s.recent.writeKb = 0 ∧ 0 < s.lifetime.writeKb ∧ ¬ "null".toList <:+: s.line := by
  intro u
  have hu : u.IsNonneg := by
    refine ⟨?_, ⟨?_, ?_, ?_⟩, ⟨?_, ?_, ?_⟩⟩ <;> decide
  obtain ⟨s, hs, -, hzero, hpos, hmb, htext⟩ := rates_are_sane hu
  have hread : ¬ u.IsIdle .read .recent := by decide
  have hreadMb : s.recent.readMb ≠ 0 := fun h =>
    hread ((hzero .recent .read).mp ((hmb .recent .read).mp h))
  exact ⟨hu, s, hs, hpos .recent .read hread, hreadMb, (hzero .recent .write).mpr (by decide),
    hpos .lifetime .write (by decide), htext⟩

end IoWatch
