import IoWatch.Proofs.JsonReader
import IoWatch.Proofs.LimitedSink
import IoWatch.Proofs.TextForms

/-!
# Reading the lines of snapshots

The line of a snapshot is read like any JSON text, and seven of the numbers in it are looked up by
their names. They are words, and the text of a word is read back as that word. So the line has in it
the usage that the snapshot was taken of, and with it all that a snapshot of that usage can hold.
Lines that were published one after the other stand apart in the text that was written.

## Main definitions

* `integer?`, `word?`: the integer and the word that a text denotes
* `Sample.below?`, `Usage.ofLine?`: the sample below some names, and the usage that a line is of
* `Snapshot.textOf`: the text of some snapshots, each on a line
* `Publisher.Publishes`: a publisher publishes some usages in a row

## Main results

* `word?_integerText`: a word is read back
* `Usage.ofLine?_line`: the line of a snapshot is of its usage
* `Publisher.Publishes.exists_textOf`: what is written when all publishes succeed
* `Snapshot.lines_textOf`: the lines of snapshots stand apart
* `lines_determine_snapshots`: all of it
-/

namespace IoWatch

/-! ## Words -/

/-- The integer that digits behind an optional sign denote. -/
def integer? (cs : List Char) : Option Int :=
  (digits? (signSplit cs).2).map (signed (signSplit cs).1)

/-- The word that a text denotes. -/
def word? (cs : List Char) : Option Int64 :=
  ((integer? cs).filter (fun i => IsWord i)).map Int64.ofInt

theorem signSplit_of_digitText {ds : List Char} {n : Nat} (h : DigitText ds n) :
    signSplit ds = (false, ds) := by
  have hsplit := h.signSplit_append []
  rwa [List.append_nil] at hsplit

theorem integer?_integerText (i : Int) : integer? (integerText i) = some i := by
  have hdigits := digits?_eq_some_iff.mpr (digitText_toDigits i.natAbs)
  by_cases hneg : i < 0
  · have htext : integerText i = '-' :: Nat.toDigits 10 i.natAbs := by
      rw [integerText, if_pos hneg, List.singleton_append]
    rw [htext, integer?, signSplit, hdigits]
    show some (-(i.natAbs : Int)) = some i
    rw [← Int.eq_neg_natAbs_of_nonpos (Int.le_of_lt hneg)]
  · have htext : integerText i = Nat.toDigits 10 i.natAbs := by
      rw [integerText, if_neg hneg, List.nil_append]
    rw [htext, integer?, signSplit_of_digitText (digitText_toDigits i.natAbs), hdigits]
    show some (i.natAbs : Int) = some i
    rw [Int.natAbs_of_nonneg (Int.not_lt.mp hneg)]

/-- A word is read back from its text. -/
theorem word?_integerText (w : Int64) : word? (integerText w.toInt) = some w := by
  have hword : IsWord w.toInt := ⟨w.minValue_le_toInt, w.toInt_le⟩
  rw [word?, integer?_integerText, Option.filter_some, if_pos (decide_eq_true hword),
    Option.map_some, Int64.ofInt_toInt]

/-! ## Snapshots -/

/-- The word below some names. -/
def Json.wordBelow? (leaves : List Json.Leaf) (path : List String) : Option Int64 :=
  (leaves.find? fun leaf => leaf.path = path).bind fun leaf => word? leaf.text

/-- The sample below some names. -/
def Sample.below? (leaves : List Json.Leaf) (path : List String) : Option Sample := do
  let timestampMs ← Json.wordBelow? leaves ("timestamp_ms" :: path)
  let readBytes ← Json.wordBelow? leaves ("read_bytes" :: path)
  let writeBytes ← Json.wordBelow? leaves ("write_bytes" :: path)
  return ⟨timestampMs, readBytes, writeBytes⟩

/-- The usage that a line is of. -/
def Usage.ofLine? (line : List Char) : Option Usage := do
  let leaves ← Json.leaves? line
  let sinceMs ← Json.wordBelow? leaves ["since_ms"]
  let previous ← Sample.below? leaves ["previous", "window"]
  let current ← Sample.below? leaves ["current", "window"]
  return ⟨sinceMs, ⟨previous, current⟩⟩

theorem Sample.isPlain_toJson (s : Sample) : Json.IsPlain s.toJson := by
  refine .object (by simp) ?_
  simp [Json.IsPlain.int]

theorem Window.isPlain_toJson (w : Window) : Json.IsPlain w.toJson := by
  refine .object (by simp) ?_
  simp [Sample.isPlain_toJson]

theorem Rates.isPlain_toJson (r : Rates) : Json.IsPlain r.toJson := by
  refine .object (by simp) ?_
  simp [Json.IsPlain.number]

/-- An object ends with its brace. -/
theorem Json.getLast?_renderRest (members : List (String × Json)) :
    (renderRest members).getLast? = some '\x7d' := by
  induction members with
  | nil => rfl
  | cons m members ih =>
    rw [renderRest, ← List.singleton_append, List.getLast?_append, List.getLast?_append, ih]
    rfl

namespace Snapshot

theorem isPlain_toJson (x : Snapshot) : Json.IsPlain x.toJson := by
  refine .object (by simp) ?_
  simp [Json.IsPlain.int, Window.isPlain_toJson, Rates.isPlain_toJson]

/-- The line of a snapshot has the start and the window in it. No two of its leaves have the same
names above them, so each word is found in its place. -/
theorem ofLine?_line (x : Snapshot) : Usage.ofLine? x.line = some ⟨x.sinceMs, x.window⟩ := by
  have hleaves := Json.leaves?_render x.isPlain_toJson
  rw [Usage.ofLine?, line, hleaves]
  simp [toJson, Window.toJson, Sample.toJson, Rates.toJson, Json.leaves, Json.leavesAll,
    Sample.below?, Json.wordBelow?, word?_integerText]

theorem ofLine?_of_snapshot {u : Usage} {x : Snapshot} (hx : u.snapshot = .ok x) :
    Usage.ofLine? x.line = some u := by
  obtain ⟨hsince, hwindow, -⟩ := Usage.snapshot_eq_ok_iff.mp hx
  rw [ofLine?_line, hsince, hwindow]

/-- A snapshot holds nothing that is not in its line: another one that has the line is of the same
usage, so it has the same rates. -/
theorem eq_of_line_eq {u v : Usage} {x y : Snapshot} (hx : u.snapshot = .ok x)
    (hy : v.snapshot = .ok y) (h : y.line = x.line) : v = u ∧ y = x := by
  have hread : Usage.ofLine? y.line = Usage.ofLine? x.line := congrArg _ h
  rw [ofLine?_of_snapshot hx, ofLine?_of_snapshot hy] at hread
  obtain rfl := Option.some.inj hread
  exact ⟨rfl, Except.ok.inj (hy.symm.trans hx)⟩

theorem map_ofLine? {us : List Usage} {xs : List Snapshot}
    (h : List.Forall₂ (fun u x => u.snapshot = .ok x) us xs) :
    xs.map (Usage.ofLine? ∘ line) = us.map some := by
  induction h with
  | nil => rfl
  | cons hx _ ih => rw [List.map_cons, List.map_cons, ih, Function.comp, ofLine?_of_snapshot hx]

/-! ## Lines in a row -/

/-- The text of some snapshots, each on a line of its own. -/
def textOf (xs : List Snapshot) : List Char := xs.flatMap fun x => x.line ++ ['\n']

theorem textOf_cons (x : Snapshot) (xs : List Snapshot) :
    textOf (x :: xs) = x.line ++ '\n' :: textOf xs := by
  rw [textOf, List.flatMap_cons, List.append_assoc, List.singleton_append]
  rfl

theorem getLast?_line (x : Snapshot) : x.line.getLast? = some '\x7d' := by
  have hrest := Json.getLast?_renderRest [("window", x.window.toJson),
    ("sample_time", x.recent.toJson), ("accumulated", x.lifetime.toJson)]
  rw [line, toJson, Json.render, ← List.singleton_append, List.getLast?_append,
    List.getLast?_append, hrest]
  rfl

/-- Lines of snapshots stand apart in their text. -/
theorem lines_textOf (xs : List Snapshot) : lines (textOf xs) = xs.map line := by
  induction xs with
  | nil => rfl
  | cons x xs ih =>
    have hreturn : x.line.getLast? ≠ some '\r' := by
      rw [getLast?_line]
      decide
    rw [textOf_cons, lines_append_feed x.newline_notMem_line hreturn, ih, List.map_cons]

end Snapshot

namespace Sink

variable {sink sink' : Sink}

/-- A write that succeeds has written all of it. -/
theorem eq_of_write {bytes : List UInt8} (h : sink.write bytes = (sink', .ok ())) :
    sink' = { sink with written := sink.written ++ bytes } := by
  by_cases hne : bytes = []
  · subst hne
    rw [write_nil] at h
    rw [List.append_nil]
    exact (Prod.mk.inj h).1.symm
  · cases hfits : sink.fits bytes.length with
    | true =>
      rw [write_of_fits hfits] at h
      exact (Prod.mk.inj h).1.symm
    | false =>
      rw [write_of_not_fits hne hfits] at h
      cases (Prod.mk.inj h).2

/-- So has a line with its end. -/
theorem eq_of_writeLine {line : List Char} (h : sink.writeLine line = (sink', .ok ())) :
    sink' = { sink with written := sink.written ++ Utf8.encode (line ++ ['\n']) } := by
  unfold writeLine at h
  split at h
  · cases (Prod.mk.inj h).2
  next t hline =>
    split at h
    · cases (Prod.mk.inj h).2
    next t' hend =>
      obtain rfl := (Prod.mk.inj h).1
      rw [eq_of_write hend, eq_of_write hline, List.append_assoc]
      simp [Utf8.encode]

theorem exists_writeLine (h : sink.capacity = none) (hflush : sink.whenFlushed = none)
    (line : List Char) : ∃ sink', sink.writeLine line = (sink', .ok ()) ∧ sink'.capacity = none ∧
      sink'.whenFlushed = none := by
  have hok : sink.flush = .ok () := by simp only [flush, hflush]
  exact ⟨_, (writeLine_of_unlimited h line).trans (Prod.ext rfl hok), h, hflush⟩

end Sink

namespace Publisher

/-- A publisher succeeds in publishing some usages in a row, whatever sample it is handed with each
of them. -/
inductive Publishes : Publisher → List Usage → Publisher → Prop where
  | nil (p : Publisher) : Publishes p [] p
  | cons {p p' : Publisher} {u : Usage} {us : List Usage} (sample : Sample)
      (h : (p.publish u sample).outcome = .published)
      (hrest : Publishes (p.publish u sample).next us p') : Publishes p (u :: us) p'

/-- A publish to a sink that succeeds has written the line of a snapshot. -/
theorem exists_line_of_published {sink : Sink} {u : Usage} {sample : Sample}
    (h : ((jsonLines sink).publish u sample).outcome = .published) :
    ∃ x, u.snapshot = .ok x ∧ ((jsonLines sink).publish u sample).next =
      jsonLines { sink with written := sink.written ++ Utf8.encode (x.line ++ ['\n']) } := by
  cases hx : u.snapshot with
  | error reason =>
    simp only [publish, hx] at h
    cases h
  | ok x =>
    simp only [publish, hx, Outcome.ofWrite_eq_published_iff] at h ⊢
    exact ⟨x, rfl, congrArg jsonLines (Sink.eq_of_writeLine (Prod.ext rfl h))⟩

/-- Publishes that succeed have written the lines of snapshots. -/
theorem Publishes.exists_textOf {sink : Sink} {us : List Usage} {p : Publisher}
    (h : Publishes (jsonLines sink) us p) :
    ∃ xs, List.Forall₂ (fun u x => u.snapshot = .ok x) us xs ∧
      p = jsonLines { sink with written := sink.written ++ Utf8.encode (Snapshot.textOf xs) } := by
  induction us generalizing sink with
  | nil =>
    cases h
    exact ⟨[], .nil, by simp [Snapshot.textOf, Utf8.encode]⟩
  | cons u us ih =>
    cases h with
    | cons sample h hrest =>
      obtain ⟨x, hx, hnext⟩ := exists_line_of_published h
      rw [hnext] at hrest
      obtain ⟨xs, hxs, rfl⟩ := ih hrest
      refine ⟨x :: xs, .cons hx hxs, ?_⟩
      simp [Snapshot.textOf, Utf8.encode]

/-- A sink without a limit that can be flushed lets every usage be published that has a snapshot. -/
theorem exists_publishes {sink : Sink} (h : sink.capacity = none) (hflush : sink.whenFlushed = none)
    (sample : Sample) {us : List Usage} (hus : ∀ u ∈ us, ∃ x, u.snapshot = .ok x) :
    ∃ p, Publishes (jsonLines sink) us p := by
  induction us generalizing sink with
  | nil => exact ⟨_, .nil _⟩
  | cons u us ih =>
    obtain ⟨⟨x, hx⟩, hus⟩ := List.forall_mem_cons.mp hus
    obtain ⟨sink', hline, h', hflush'⟩ := Sink.exists_writeLine h hflush x.line
    obtain ⟨p, hp⟩ := ih h' hflush' hus
    refine ⟨p, .cons sample ?_ ?_⟩
    · simp only [publish, hx, hline, Outcome.ofWrite]
    · simpa only [publish, hx, hline] using hp

end Publisher

/-- **The lines determine the snapshots.** Take any usage that has a snapshot. The line of the
snapshot has no line feed in it, and is read as the usage, which is the start and the window with
all its fields. So another snapshot with the same line is of the same usage and has the same rates.
Now let a publisher of JSON lines publish any usages in a row and succeed each time, whatever its
sink is. What was written behind the bytes of before is a text whose lines are those of the
snapshots, one for each publish, and they are read as the usages in their order. -/
theorem lines_determine_snapshots :
    (∀ u x, u.snapshot = .ok x →
      '\n' ∉ x.line ∧ Usage.ofLine? x.line = some u ∧
        ∀ v y, v.snapshot = .ok y → y.line = x.line → v = u ∧ y = x) ∧
    ∀ sink us p, Publisher.Publishes (.jsonLines sink) us p →
      ∃ xs text, List.Forall₂ (fun u x => u.snapshot = .ok x) us xs ∧
        p = .jsonLines { sink with written := sink.written ++ Utf8.encode text } ∧
        lines text = xs.map Snapshot.line ∧ (lines text).map Usage.ofLine? = us.map some := by
  refine ⟨fun u x hx => ?_, fun sink us p hp => ?_⟩
  · exact ⟨x.newline_notMem_line, Snapshot.ofLine?_of_snapshot hx,
      fun v y hy => Snapshot.eq_of_line_eq hx hy⟩
  · obtain ⟨xs, hxs, rfl⟩ := hp.exists_textOf
    have hlines := Snapshot.lines_textOf xs
    refine ⟨xs, Snapshot.textOf xs, hxs, rfl, hlines, ?_⟩
    rw [hlines, List.map_map]
    exact Snapshot.map_ofLine? hxs

/-- The least and the largest words in every field but one, published twice with another usage in
between. -/
theorem lines_determine_snapshots_of_extremes :
    let u : Usage := ⟨Int64.maxValue, ⟨⟨Int64.maxValue, Int64.minValue, Int64.maxValue⟩,
      ⟨Int64.minValue, -1, Int64.minValue⟩⟩⟩
    ∃ x, u.snapshot = .ok x ∧ Usage.ofLine? x.line = some u ∧
      (∀ v y, v.snapshot = .ok y → y.line = x.line → v = u) ∧
      ∃ text, Publisher.Publishes (.jsonLines .unlimited) [u, .start 0, u]
          (.jsonLines { Sink.unlimited with written := Utf8.encode text }) ∧
        (lines text).length = 3 ∧
        (lines text).map Usage.ofLine? = [some u, some (.start 0), some u] := by
  intro u
  have hall : ∀ v ∈ [u, .start 0, u], ∃ x, v.snapshot = .ok x := by
    simp only [List.forall_mem_cons]
    exact ⟨⟨_, rfl⟩, ⟨_, rfl⟩, ⟨_, rfl⟩, List.forall_mem_nil _⟩
  obtain ⟨x, hx⟩ := hall u List.mem_cons_self
  obtain ⟨hline, hpublished⟩ := lines_determine_snapshots
  obtain ⟨-, hread, hsame⟩ := hline u x hx
  obtain ⟨p, hp⟩ := @Publisher.exists_publishes .unlimited rfl rfl .origin _ hall
  obtain ⟨xs, text, hxs, rfl, hlines, hreadAll⟩ := hpublished _ _ p hp
  refine ⟨x, hx, hread, fun v y hy h => (hsame v y hy h).1, text, hp, ?_, hreadAll⟩
  rw [hlines, List.length_map, ← hxs.length_eq]
  rfl

end IoWatch
