import IoWatch.Counters
import IoWatch.Rate
import IoWatch.Proofs.TextForms

/-!
# The entries of a counters file

A line gives a counter when it is made of the counter's name, a colon and a number of at most 63
bits, with blanks around the name and the number. The counters of a file are those that their last
such lines give; a line of any other form changes nothing, wherever it stands.

## Main definitions

* `IsEntry line name n`: a line is made of a name, a colon and a number
* `Side.entryName`, `Counters.get`: the name of a counter's lines, and its value
* `Side.entryValue?`: the number that a line gives a counter
* `LastEntry ls name n`: a number stands in the last of some lines that give a name one

## Main results

* `counterEntry?_eq_some_iff`: the lines from which a name and a number are read
* `Counters.get_addLine`, `Counters.get_parse`: a counter after a line, and after a text
* `counters_are_last_entries`: what is read from every text
-/

namespace IoWatch

/-! ## Lines that are entries -/

/-- A line is made of a key, a colon and a value: the name and blanks around it, and a number of at
most 63 bits and blanks around it. There is no colon in the key. -/
inductive IsEntry : List Char → List Char → Nat → Prop where
  | mk {key value name numeral : List Char} {n : Nat} (hkey : ':' ∉ key)
      (hname : HasCore key name) (hvalue : HasCore value numeral) (hn : NaturalText numeral n)
      (hbound : n ≤ Nat.pow 2 63 - 1) : IsEntry (key ++ ':' :: value) name n

/-- The lines from which a name and a number are read. -/
theorem counterEntry?_eq_some_iff {line name : List Char} {n : Nat} :
    counterEntry? line = some (name, n) ↔ IsEntry line name n := by
  have hbound : n < Nat.pow 2 63 ↔ n ≤ Nat.pow 2 63 - 1 := Nat.lt_iff_le_pred (by decide)
  unfold counterEntry?
  constructor
  · intro h
    obtain ⟨⟨key, value⟩, hsplit, h⟩ := Option.bind_eq_some_iff.mp h
    obtain ⟨m, hm, h⟩ := Option.bind_eq_some_iff.mp h
    cases h
    obtain ⟨rfl, hkey⟩ := splitAtFirst_eq_some_iff.mp hsplit
    obtain ⟨hn, hlt⟩ := natural?_eq_some_iff.mp hm
    exact .mk hkey (hasCore_trimmed key) (hasCore_trimmed value) hn (hbound.mp hlt)
  · rintro ⟨hkey, hname, hvalue, hn, hle⟩
    apply Option.bind_eq_some_iff.mpr
    refine ⟨_, splitAtFirst_append hkey _, ?_⟩
    dsimp only
    rw [hvalue.trimmed_eq, natural?_eq_some_iff.mpr ⟨hn, hbound.mpr hle⟩, hname.trimmed_eq]
    rfl

/-! ## The value of a counter -/

/-- The name of a counter's lines. -/
def Side.entryName : Side → List Char
  | .read => "read_bytes".toList
  | .write => "write_bytes".toList

@[simp] theorem Side.entryName_read : Side.entryName .read = Counters.readName.toList := rfl

@[simp] theorem Side.entryName_write : Side.entryName .write = Counters.writeName.toList := rfl

/-- The value of a counter, as far as it is known. -/
def Counters.get (c : Counters) : Side → Option Nat
  | .read => c.readBytes
  | .write => c.writeBytes

/-- The number that a line gives a counter. -/
def Side.entryValue? (side : Side) (line : List Char) : Option Nat :=
  counterEntry? line |>.bind fun (name, n) => if name = side.entryName then some n else none

variable {side : Side}

theorem entryValue?_eq_some_iff {line : List Char} {n : Nat} :
    side.entryValue? line = some n ↔ IsEntry line side.entryName n := by
  rw [← counterEntry?_eq_some_iff, Side.entryValue?, Option.bind_eq_some_iff]
  constructor
  · rintro ⟨⟨name, m⟩, hline, h⟩
    obtain ⟨hname, h⟩ := Option.ite_none_right_eq_some.mp h
    rw [hline, hname, Option.some.inj h]
  · intro hline
    exact ⟨_, hline, if_pos rfl⟩

theorem entryValue?_eq_none_iff {line : List Char} :
    side.entryValue? line = none ↔ ∀ n, ¬ IsEntry line side.entryName n := by
  simp only [Option.eq_none_iff_forall_ne_some, ne_eq, entryValue?_eq_some_iff]

/-- A line that gives a counter a number sets it, and any other one leaves it. The names of the two
counters differ, so no line sets both. -/
theorem Counters.get_addLine (c : Counters) (line : List Char) (side : Side) :
    (c.addLine line).get side = (side.entryValue? line).or (c.get side) := by
  unfold addLine Side.entryValue?
  rcases counterEntry? line with _ | ⟨name, n⟩
  · rfl
  dsimp only [Option.bind_some]
  have hnames : readName.toList ≠ writeName.toList := by decide
  by_cases hread : name = readName.toList
  · subst hread
    cases side <;> simp [get, hnames]
  by_cases hwrite : name = writeName.toList
  · subst hwrite
    cases side <;> simp [get, hnames.symm]
  · cases side <;> simp [hread, hwrite]

theorem Counters.get_foldl_addLine (c : Counters) (ls : List (List Char)) (side : Side) :
    (ls.foldl addLine c).get side = (ls.reverse.findSome? side.entryValue?).or (c.get side) := by
  induction ls generalizing c with
  | nil => rfl
  | cons line ls ih =>
    rw [List.foldl_cons, ih, get_addLine, List.reverse_cons, List.findSome?_append, Option.or_assoc]
    rw [List.findSome?_singleton]

/-- A counter has the number that the last of the lines gives it. -/
theorem Counters.get_parse (text : List Char) (side : Side) :
    (parse text).get side = (lines text).reverse.findSome? side.entryValue? := by
  rw [parse, get_foldl_addLine]
  cases side <;> exact Option.or_none

/-! ## The last entry -/

/-- A number stands in the last of some lines that are entries for a name. -/
def LastEntry (ls : List (List Char)) (name : List Char) (n : Nat) : Prop :=
  ∃ before line behind, ls = before ++ line :: behind ∧ IsEntry line name n ∧
    ∀ l ∈ behind, ∀ m, ¬ IsEntry l name m

theorem findSome?_reverse_eq_some_iff {ls : List (List Char)} {n : Nat} :
    ls.reverse.findSome? side.entryValue? = some n ↔ LastEntry ls side.entryName n := by
  rw [List.findSome?_eq_some_iff]
  constructor
  · rintro ⟨behind, line, before, hls, hline, hbehind⟩
    refine ⟨before.reverse, line, behind.reverse, ?_, entryValue?_eq_some_iff.mp hline, ?_⟩
    · rw [← List.reverse_reverse ls, hls]
      simp
    · intro l hl
      exact entryValue?_eq_none_iff.mp (hbehind l (List.mem_reverse.mp hl))
  · rintro ⟨before, line, behind, rfl, hline, hbehind⟩
    refine ⟨behind.reverse, line, before.reverse, by simp, entryValue?_eq_some_iff.mpr hline, ?_⟩
    intro l hl
    exact entryValue?_eq_none_iff.mpr (hbehind l (List.mem_reverse.mp hl))

theorem findSome?_reverse_eq_none_iff {ls : List (List Char)} :
    ls.reverse.findSome? side.entryValue? = none ↔
      ∀ line ∈ ls, ∀ n, ¬ IsEntry line side.entryName n := by
  simp only [List.findSome?_eq_none_iff, List.mem_reverse, entryValue?_eq_none_iff]

/-- A line that is no entry for a counter can be left out. -/
theorem findSome?_reverse_append_cons {before behind : List (List Char)} {line : List Char}
    (h : ∀ n, ¬ IsEntry line side.entryName n) :
    (before ++ line :: behind).reverse.findSome? side.entryValue? =
      (before ++ behind).reverse.findSome? side.entryValue? := by
  have hline : side.entryValue? line = none := entryValue?_eq_none_iff.mpr h
  simp only [List.reverse_append, List.reverse_cons, List.findSome?_append,
    List.findSome?_singleton, hline, Option.or_none]

/-- **The counters of a file are its last entries.** A text is made of one list of lines. A counter
has the number of the last of them that is an entry for its name, and it has none exactly when none
of them is. A line that is no entry for the name has no effect: a text made of the other lines gives
the counter the same value. -/
theorem counters_are_last_entries (text : List Char) (side : Side) :
    ∃ ls, (∀ ls', HasLines text ls' ↔ ls' = ls) ∧
      (∀ n, (Counters.parse text).get side = some n ↔ LastEntry ls side.entryName n) ∧
      ((Counters.parse text).get side = none ↔
        ∀ line ∈ ls, ∀ n, ¬ IsEntry line side.entryName n) ∧
      ∀ before line behind, ls = before ++ line :: behind →
        (∀ n, ¬ IsEntry line side.entryName n) → ∀ others, HasLines others (before ++ behind) →
          (Counters.parse others).get side = (Counters.parse text).get side := by
  refine ⟨lines text, fun ls' => ?_, fun n => ?_, ?_, ?_⟩
  · rw [← lines_eq_iff]
    exact eq_comm
  · rw [Counters.get_parse]
    exact findSome?_reverse_eq_some_iff
  · rw [Counters.get_parse]
    exact findSome?_reverse_eq_none_iff
  · intro before line behind hls hline others hothers
    rw [Counters.get_parse, Counters.get_parse, hothers.lines_eq, hls]
    exact (findSome?_reverse_append_cons hline).symm

/-- A good line and two lines for the same name behind it that give no number. -/
def goodThenBad : List (List Char) :=
  ["\u00a0read_bytes : +007", "read_bytes: -5", "read_bytes: 9223372036854775808"].map (·.toList)

/-- The bad lines give no number: the good one counts, with and without the first of them. -/
theorem counters_are_last_entries_before_bad_lines :
    (Counters.parse (goodThenBad.flatMap (· ++ ['\r', '\n']))).get .read = some 7 ∧
      (Counters.parse ((goodThenBad.eraseIdx 1).flatMap (· ++ ['\n']))).get .read = some 7 := by
  obtain ⟨ls, hlines, hsome, -, hskip⟩ :=
    counters_are_last_entries (goodThenBad.flatMap (· ++ ['\r', '\n'])) .read
  have hls : goodThenBad = ls := (hlines _).mp (lines_eq_iff.mp (by decide +kernel))
  subst hls
  have hgood : (Counters.parse (goodThenBad.flatMap (· ++ ['\r', '\n']))).get .read = some 7 := by
    apply (hsome 7).mpr
    apply findSome?_reverse_eq_some_iff.mp
    decide +kernel
  refine ⟨hgood, ?_⟩
  rw [← hgood]
  apply hskip [goodThenBad[0]] goodThenBad[1] [goodThenBad[2]] rfl
  · exact entryValue?_eq_none_iff.mp (by decide +kernel)
  · exact lines_eq_iff.mp (by decide +kernel)

end IoWatch
