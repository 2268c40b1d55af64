import IoWatch.Proofs.CounterEntries
import IoWatch.Proofs.JsonText
import IoWatch.Text.Alphanumeric

/-!
# Counters files as they are written

A counters file is written entry by entry: a name, a colon, a blank and a number, with the end of
the line behind it, which the last line may lack. Where every name is a word and each of the two
counters has one entry, the file is read back, whatever the other entries are and wherever they
stand. Of two texts that meet at the end of a line, the second one decides about the counters that
it gives, and the first one about the others.

## Main definitions

* `CounterEntry`, `CounterEntry.line`: a name with a number, and their line
* `LineEnd`, `fileText`: how a line can end, and the text of a file
* `IsName name`: a text is made of letters and underscores

## Main results

* `isBlank_eq_false_of_isAlphabetic`: no letter of any script is a blank
* `hasLines_fileText`: the text of a file is made of the lines of its entries
* `entryValue?_line_self`, `entryValue?_line_of_ne`: what a written line gives a counter
* `Counters.get_parse_append`: the counters of two texts that meet at the end of a line
* `written_counters_are_read_back`: what is read from every written file
-/

namespace IoWatch

/-! ## What is no blank -/

theorem isBlank_eq_false_of_visible {c : Char} (hlow : 0x21 ≤ c.toNat) (hhigh : c.toNat ≤ 0x7e) :
    isBlank c = false := by
  simp only [isBlank, Bool.or_eq_false_iff, Bool.and_eq_false_iff, decide_eq_false_iff_not,
    beq_eq_false_iff_ne]
  omega

theorem isBlank_eq_false_of_isDigit {c : Char} (h : c.isDigit = true) : isBlank c = false := by
  obtain ⟨hlow, hhigh⟩ := Char.isDigit_iff_toNat.mp h
  change 48 ≤ c.toNat at hlow
  change c.toNat ≤ 57 at hhigh
  exact isBlank_eq_false_of_visible (by omega) (by omega)

theorem visible_of_isAlpha {c : Char} (h : c.isAlpha = true) :
    0x41 ≤ c.toNat ∧ c.toNat ≤ 0x7a := by
  change (decide (c.val ≥ 'A'.val ∧ c.val ≤ 'Z'.val) ||
    (decide (c.val ≥ 'a'.val) && decide (c.val ≤ 'z'.val))) = true at h
  simp only [Bool.or_eq_true, Bool.and_eq_true, decide_eq_true_eq, UInt32.le_iff_toNat_le,
    Char.toNat_val, ge_iff_le, Char.reduceToNat] at h
  omega

/-- The first and the last code points of ranges without a letter behind ASCII: ASCII itself, and
the blanks behind it. -/
def letterless : List (Nat × Nat) :=
  [(0, 0x7f), (0x85, 0x85), (0xa0, 0xa0), (0x1680, 0x1680), (0x2000, 0x200a), (0x2028, 0x2029),
    (0x202f, 0x202f), (0x205f, 0x205f), (0x3000, 0x3000)]

theorem alphabeticRanges_apart : ∀ letters ∈ alphabeticRanges.toList, ∀ others ∈ letterless,
    letters.2 < others.1 ∨ others.2 < letters.1 := by
  decide +kernel

theorem isWithin_eq_false_of_letterless {c : Char}
    (h : ∃ others ∈ letterless, others.1 ≤ c.toNat ∧ c.toNat ≤ others.2) :
    isWithin alphabeticRanges c = false := by
  obtain ⟨others, hothers, hlow, hhigh⟩ := h
  rw [← Bool.not_eq_true, isWithin, ← Array.any_toList, List.any_eq_true]
  rintro ⟨letters, hletters, hin⟩
  rw [Bool.and_eq_true, decide_eq_true_iff, decide_eq_true_iff] at hin
  have hapart := alphabeticRanges_apart letters hletters others hothers
  omega

/-- A blank is no letter of any script. -/
theorem isBlank_eq_false_of_isAlphabetic {c : Char} (h : isAlphabetic c = true) :
    isBlank c = false := by
  rw [isAlphabetic, Bool.or_eq_true] at h
  rcases h with hascii | hwithin
  · obtain ⟨hlow, hhigh⟩ := visible_of_isAlpha hascii
    exact isBlank_eq_false_of_visible (by omega) (by omega)
  · rw [← Bool.not_eq_true]
    intro hblank
    rw [isWithin_eq_false_of_letterless] at hwithin
    · cases hwithin
    simp only [isBlank, Bool.or_eq_true, Bool.and_eq_true, decide_eq_true_eq, beq_iff_eq] at hblank
    simp only [letterless, List.exists_mem_cons_iff, List.not_mem_nil, false_and, exists_false]
    omega

/-! ## The lines of entries -/

/-- A name and the number behind it. -/
structure CounterEntry where
  name : List Char
  number : Int
  deriving DecidableEq

/-- The line of an entry, without its end. -/
def CounterEntry.line (e : CounterEntry) : List Char := e.name ++ ':' :: ' ' :: integerText e.number

/-- A text is made of letters and underscores. -/
def IsName (name : List Char) : Prop := ∀ c ∈ name, isAlphabetic c = true ∨ c = '_'

section Names

variable {name : List Char}

theorem IsName.isBlank_eq_false (h : IsName name) : ∀ c ∈ name, isBlank c = false := by
  intro c hc
  rcases h c hc with hletter | rfl
  · exact isBlank_eq_false_of_isAlphabetic hletter
  · decide

theorem IsName.newline_notMem (h : IsName name) : '\n' ∉ name := by
  intro hmem
  exact absurd (h.isBlank_eq_false '\n' hmem) (by decide)

theorem IsName.colon_notMem (h : IsName name) : ':' ∉ name := by
  intro hmem
  rcases h ':' hmem with hletter | heq
  · rw [isAlphabetic, isWithin_eq_false_of_letterless ⟨_, List.mem_cons_self, by decide⟩] at hletter
    exact absurd hletter (by decide)
  · exact absurd heq (by decide)

theorem isName_of_isAlpha (h : (name.all fun c => c.isAlpha || c == '_') = true) :
    IsName name := by
  intro c hc
  have hletter := List.all_eq_true.mp h c hc
  rw [Bool.or_eq_true, beq_iff_eq] at hletter
  refine hletter.imp_left fun hletter => ?_
  rw [isAlphabetic, hletter, Bool.true_or]

theorem Side.isName_entryName (side : Side) : IsName side.entryName := by
  cases side <;> exact isName_of_isAlpha (by decide)

end Names

namespace CounterEntry

variable {e : CounterEntry}

theorem line_ne_nil (e : CounterEntry) : e.line ≠ [] := by simp [line]

theorem newline_notMem_line (h : IsName e.name) : '\n' ∉ e.line := by
  simp [line, h.newline_notMem]

/-- A line ends with a digit. -/
theorem getLast?_line (e : CounterEntry) : e.line.getLast? ≠ some '\r' := by
  have hdigits : integerText e.number ≠ [] := by simp [integerText, Nat.toDigits_ne_nil]
  have hline : e.line = e.name ++ [':', ' '] ++ integerText e.number := by simp [line]
  rw [hline, List.getLast?_append_of_ne_nil _ hdigits]
  intro hlast
  have hreturn := Json.isNumberChar_of_mem_integerText (List.mem_of_getLast? hlast)
  exact absurd hreturn (by decide)

end CounterEntry

/-! ## The text of a file -/

/-- How a line can end. -/
inductive LineEnd where
  | feed
  | returnFeed

/-- The characters of a line end. -/
def LineEnd.text : LineEnd → List Char
  | feed => ['\n']
  | returnFeed => ['\r', '\n']

/-- The text of a file with some entries, each with the end of its line; where the file is not
ended, the last line has no end. -/
def fileText (ended : Bool) : List (CounterEntry × LineEnd) → List Char
  | [] => []
  | [(e, lineEnd)] => e.line ++ if ended then lineEnd.text else []
  | (e, lineEnd) :: entry :: entries =>
    e.line ++ (lineEnd.text ++ fileText ended (entry :: entries))

theorem LineEnd.hasLines_append (lineEnd : LineEnd) {line cs : List Char} {ls : List (List Char)}
    (hfeed : '\n' ∉ line) (hreturn : line.getLast? ≠ some '\r') (h : HasLines cs ls) :
    HasLines (line ++ (lineEnd.text ++ cs)) (line :: ls) := by
  cases lineEnd with
  | feed => exact .feed hfeed hreturn h
  | returnFeed => exact .returnFeed hfeed h

/-- The text of a file is made of the lines of its entries. -/
theorem hasLines_fileText (ended : Bool) {entries : List (CounterEntry × LineEnd)}
    (h : ∀ e ∈ entries, IsName e.1.name) :
    HasLines (fileText ended entries) (entries.map fun e => e.1.line) := by
  fun_induction fileText ended entries with
  | case1 => exact .none
  | case2 e lineEnd =>
    have hfeed : '\n' ∉ e.line := CounterEntry.newline_notMem_line (h _ List.mem_cons_self)
    cases ended with
    | false => simpa using .unended e.line_ne_nil hfeed
    | true => simpa using lineEnd.hasLines_append hfeed e.getLast?_line .none
  | case3 e lineEnd entry entries ih =>
    have hfeed : '\n' ∉ e.line := CounterEntry.newline_notMem_line (h _ List.mem_cons_self)
    exact lineEnd.hasLines_append hfeed e.getLast?_line
      (ih fun e he => h e (List.mem_cons_of_mem _ he))

/-! ## What a written line gives a counter -/

variable {side : Side}

/-- A counter's own line gives it its number. -/
theorem entryValue?_line_self (side : Side) {n : Nat} (h : n ≤ Nat.pow 2 63 - 1) :
    side.entryValue? (CounterEntry.line ⟨side.entryName, n⟩) = some n := by
  have hname := side.isName_entryName
  have hdigits : ∀ c ∈ Nat.toDigits 10 n, isBlank c = false := fun c hc =>
    isBlank_eq_false_of_isDigit (Nat.isDigit_of_mem_toDigits (by decide) (by decide) hc)
  have hvalue : HasCore (' ' :: integerText n) (Nat.toDigits 10 n) :=
    (hasCore_self hdigits).cons rfl
  exact entryValue?_eq_some_iff.mpr (.mk hname.colon_notMem (hasCore_self hname.isBlank_eq_false)
    hvalue (.bare (digitText_toDigits n)) h)

/-- The line of another name gives it none. -/
theorem entryValue?_line_of_ne {e : CounterEntry} (hname : IsName e.name)
    (hne : e.name ≠ side.entryName) : side.entryValue? e.line = none := by
  have hsplit : splitAtFirst ':' e.line = some (e.name, ' ' :: integerText e.number) :=
    splitAtFirst_append hname.colon_notMem _
  have htrimmed : trimmed e.name = e.name := (hasCore_self hname.isBlank_eq_false).trimmed_eq
  rw [Side.entryValue?, counterEntry?, hsplit]
  cases hn : natural? 63 (trimmed (' ' :: integerText e.number)) <;> simp [hn, htrimmed, hne]

/-! ## What is read -/

/-- Where one element of a list alone has a value, it is found wherever it stands. -/
theorem findSome?_eq_of_perm {α β : Type} {f : α → Option β} {l rest : List α} {a : α} {b : β}
    (hperm : l.Perm (a :: rest)) (ha : f a = some b) (hrest : ∀ x ∈ rest, f x = none) :
    l.findSome? f = some b := by
  have hvalues := hperm.filterMap f
  rw [List.filterMap_cons_some ha, List.filterMap_eq_nil_iff.mpr hrest, List.perm_singleton]
    at hvalues
  rw [← List.head?_filterMap, hvalues, List.head?_cons]

/-- A counter with one entry of its own in a written file has the number of that entry. -/
theorem Counters.get_parse_fileText (ended : Bool) {entries : List (CounterEntry × LineEnd)}
    {others : List CounterEntry} {n : Nat} (hn : n ≤ Nat.pow 2 63 - 1)
    (hothers : ∀ e ∈ others, IsName e.name ∧ e.name ≠ side.entryName)
    (hperm : (entries.map Prod.fst).Perm (⟨side.entryName, n⟩ :: others)) :
    (parse (fileText ended entries)).get side = some n := by
  have hnames : ∀ e ∈ entries, IsName e.1.name := by
    intro e he
    have hmem := hperm.mem_iff.mp (List.mem_map_of_mem he)
    rcases List.mem_cons.mp hmem with heq | hmem
    · rw [heq]
      exact side.isName_entryName
    · exact (hothers _ hmem).1
  have hlines : lines (fileText ended entries) = (entries.map Prod.fst).map CounterEntry.line := by
    rw [(hasLines_fileText ended hnames).lines_eq, List.map_map]
    rfl
  rw [get_parse, hlines]
  refine findSome?_eq_of_perm ((List.reverse_perm _).trans (hperm.map _))
    (entryValue?_line_self side hn) ?_
  intro line hline
  obtain ⟨e, he, rfl⟩ := List.mem_map.mp hline
  exact entryValue?_line_of_ne (hothers e he).1 (hothers e he).2

/-- Of two texts that meet at the end of a line, the second one decides about a counter that it
gives. -/
theorem Counters.get_parse_append {a : List Char} (ha : a.getLast? = some '\n') (b : List Char)
    (side : Side) :
    (parse (a ++ b)).get side = ((parse b).get side).or ((parse a).get side) := by
  have hlines : lines (a ++ b) = lines a ++ lines b :=
    ((hasLines_lines a).append (.inr ha) (hasLines_lines b)).lines_eq
  simp only [get_parse, hlines, List.reverse_append, List.findSome?_append]

theorem Counters.eq_of_get_eq {c d : Counters} (h : ∀ side, c.get side = d.get side) : c = d := by
  obtain ⟨r, w⟩ := c
  obtain ⟨r', w'⟩ := d
  obtain rfl : r = r' := h .read
  obtain rfl : w = w' := h .write
  rfl

/-- **Written counters are read back.** Take any two numbers of at most 63 bits and any entries
whose names are words other than those of the counters, and write all of them in any order, with
either line end behind each line, the last one of which may be left out. What is read is the two
numbers. Take any two texts of which the first ends with a line feed. What is read from them
together is, for each counter, what the second gives, and if it gives none, what the first gives. -/
theorem written_counters_are_read_back :
    (∀ (r w : Nat) (others : List CounterEntry) (entries : List (CounterEntry × LineEnd))
        (ended : Bool), r ≤ Nat.pow 2 63 - 1 → w ≤ Nat.pow 2 63 - 1 →
      (∀ e ∈ others, IsName e.name ∧ ∀ side, e.name ≠ Side.entryName side) →
      (entries.map Prod.fst).Perm
        (⟨"read_bytes".toList, r⟩ :: ⟨"write_bytes".toList, w⟩ :: others) →
      Counters.parse (fileText ended entries) = ⟨some r, some w⟩) ∧
    ∀ a b : List Char, a.getLast? = some '\n' →
      Counters.parse (a ++ b) =
        ⟨(Counters.parse b).readBytes.or (Counters.parse a).readBytes,
          (Counters.parse b).writeBytes.or (Counters.parse a).writeBytes⟩ := by
  constructor
  · intro r w others entries ended hr hw hothers hperm
    apply Counters.eq_of_get_eq
    have hnames : Side.entryName .read ≠ Side.entryName .write := by decide
    intro side
    cases side with
    | read =>
      refine Counters.get_parse_fileText ended hr ?_ hperm
      refine List.forall_mem_cons.mpr ⟨⟨Side.isName_entryName .write, hnames.symm⟩, fun e he => ?_⟩
      exact (hothers e he).imp_right fun h => h .read
    | write =>
      refine Counters.get_parse_fileText ended hw ?_ (hperm.trans (List.Perm.swap _ _ _))
      refine List.forall_mem_cons.mpr ⟨⟨Side.isName_entryName .read, hnames⟩, fun e he => ?_⟩
      exact (hothers e he).imp_right fun h => h .write
  · intro a b ha
    apply Counters.eq_of_get_eq
    intro side
    rw [Counters.get_parse_append ha]
    cases side <;> rfl

/-- The largest and the least number with both line ends, behind and before entries of other names,
one of which ends like the name of a counter; and a text that gives one counter anew. -/
theorem written_counters_are_read_back_of_extremes :
    let file := "rchar: 18446744073709551616\r\nwrite_bytes: 9223372036854775807\n" ++
      "read_bytes: 0\r\ncancelled_write_bytes: -7\n"
    let more := "write_bytes: 9223372036854775808\nread_bytes: 5"
    Counters.parse file.toList = ⟨some 0, some 9223372036854775807⟩ ∧
      Counters.parse (file ++ more).toList = ⟨some 5, some 9223372036854775807⟩ := by
  intro file more
  let others : List CounterEntry :=
    [⟨"rchar".toList, 18446744073709551616⟩, ⟨"cancelled_write_bytes".toList, -7⟩]
  let entries : List (CounterEntry × LineEnd) :=
    [(⟨"rchar".toList, 18446744073709551616⟩, .returnFeed),
      (⟨"write_bytes".toList, 9223372036854775807⟩, .feed), (⟨"read_bytes".toList, 0⟩, .returnFeed),
      (⟨"cancelled_write_bytes".toList, -7⟩, .feed)]
  have hothers : ∀ e ∈ others, IsName e.name ∧ ∀ side, e.name ≠ Side.entryName side := by
    have hnames : ∀ e ∈ others, (e.name.all fun c => c.isAlpha || c == '_') = true ∧
        e.name ≠ Side.entryName .read ∧ e.name ≠ Side.entryName .write := by decide
    intro e he
    obtain ⟨hletters, hread, hwrite⟩ := hnames e he
    exact ⟨isName_of_isAlpha hletters, fun side => by cases side <;> assumption⟩
  have hfile : file.toList = fileText true entries := by decide +kernel
  have hcounters : Counters.parse file.toList = ⟨some 0, some 9223372036854775807⟩ := by
    rw [hfile]
    exact written_counters_are_read_back.1 0 9223372036854775807 others entries true (by decide)
      (by decide) hothers (by decide)
  refine ⟨hcounters, ?_⟩
  rw [String.toList_append, written_counters_are_read_back.2 file.toList more.toList (by decide),
    hcounters]
  decide +kernel

end IoWatch
