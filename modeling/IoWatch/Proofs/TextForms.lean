import IoWatch.Text.Blank
import IoWatch.Text.Lines
import IoWatch.Text.Integer
import Mathlib.Data.List.DropRight

/-!
# The forms of text

What the readers of text take apart, said as the ways in which a text is put together: its lines
with their ends, a part before and a part behind a separator, a core between blanks, and a number
written with decimal digits. Each reader gives the parts exactly when the text is made of them.

## Main definitions

* `HasLines cs ls`: a text is made of lines and their ends
* `HasCore cs ts`: a text is made of a core and blanks around it
* `DigitText ds n`, `NaturalText cs n`: decimal digits, and a number with an optional plus sign

## Main results

* `lines_eq_iff`: a text has exactly the lines that are read
* `splitAtFirst_eq_some_iff`: the two parts around the first separator
* `trimmed_eq_iff`: a text has exactly the core that is left by trimming
* `digits?_eq_some_iff`, `natural?_eq_some_iff`: the numbers that are read
-/

namespace IoWatch

/-! ## Lines -/

/-- A text is made of lines. A line ends with a line feed, or with a carriage return and a line
feed; the last one may have no end, and then is not empty. -/
inductive HasLines : List Char → List (List Char) → Prop where
  | none : HasLines [] []
  | unended {line : List Char} (hne : line ≠ []) (hfeed : '\n' ∉ line) : HasLines line [line]
  | feed {line cs : List Char} {ls : List (List Char)} (hfeed : '\n' ∉ line)
      (hreturn : line.getLast? ≠ some '\r') (h : HasLines cs ls) :
      HasLines (line ++ '\n' :: cs) (line :: ls)
  | returnFeed {line cs : List Char} {ls : List (List Char)} (hfeed : '\n' ∉ line)
      (h : HasLines cs ls) : HasLines (line ++ '\r' :: '\n' :: cs) (line :: ls)

/-- The lines of a text that goes on behind some characters that end no line. -/
def extendFirst (cs : List Char) : List (List Char) → List (List Char)
  | [] => [cs]
  | line :: rest => (cs ++ line) :: rest

theorem lines_cons {c : Char} {cs : List Char} (hc : c ≠ '\n')
    (hreturn : c = '\r' → cs.head? ≠ some '\n') : lines (c :: cs) = extendFirst [c] (lines cs) := by
  have hpair : ∀ tail, c = '\r' → cs = '\n' :: tail → False := by
    rintro tail hcr rfl
    exact hreturn hcr rfl
  rw [lines.eq_4 c cs hc hpair]
  cases lines cs <;> rfl

theorem lines_append {line cs : List Char} (hne : line ≠ []) (hfeed : '\n' ∉ line)
    (hreturn : line.getLast? = some '\r' → cs.head? ≠ some '\n') :
    lines (line ++ cs) = extendFirst line (lines cs) := by
  induction line with
  | nil => exact absurd rfl hne
  | cons c line ih =>
    have hc : c ≠ '\n' := (List.ne_of_not_mem_cons hfeed).symm
    have hline : '\n' ∉ line := List.not_mem_of_not_mem_cons hfeed
    cases line with
    | nil =>
      apply lines_cons hc
      rintro rfl
      exact hreturn rfl
    | cons d line =>
      have hhead : (d :: line ++ cs).head? ≠ some '\n' := by
        simpa using (List.ne_of_not_mem_cons hline).symm
      have htail := ih (List.cons_ne_nil _ _) hline (by simpa using hreturn)
      rw [List.cons_append, lines_cons hc fun _ => hhead, htail]
      cases lines cs <;> rfl

/-- A line before a text that starts with the end of a line. -/
theorem lines_append_of_lines_eq {line cs : List Char} {ls : List (List Char)}
    (hfeed : '\n' ∉ line) (hreturn : line.getLast? = some '\r' → cs.head? ≠ some '\n')
    (hcs : lines cs = [] :: ls) : lines (line ++ cs) = line :: ls := by
  by_cases hne : line = []
  · rw [hne, List.nil_append, hcs]
  · rw [lines_append hne hfeed hreturn, hcs]
    show (line ++ []) :: ls = line :: ls
    rw [List.append_nil]

theorem lines_append_feed {line : List Char} (hfeed : '\n' ∉ line)
    (hreturn : line.getLast? ≠ some '\r') (cs : List Char) :
    lines (line ++ '\n' :: cs) = line :: lines cs :=
  lines_append_of_lines_eq hfeed (fun h => absurd h hreturn) rfl

theorem lines_append_returnFeed {line : List Char} (hfeed : '\n' ∉ line) (cs : List Char) :
    lines (line ++ '\r' :: '\n' :: cs) = line :: lines cs :=
  lines_append_of_lines_eq hfeed (fun _ => by simp) rfl

theorem lines_unended {line : List Char} (hne : line ≠ []) (hfeed : '\n' ∉ line) :
    lines line = [line] := by
  calc
    lines line = lines (line ++ []) := by rw [List.append_nil]
    _ = [line] := lines_append hne hfeed fun _ => by simp

theorem HasLines.lines_eq {cs : List Char} {ls : List (List Char)} (h : HasLines cs ls) :
    lines cs = ls := by
  induction h with
  | none => rfl
  | unended hne hfeed => exact lines_unended hne hfeed
  | feed hfeed hreturn _ ih => rw [lines_append_feed hfeed hreturn, ih]
  | returnFeed hfeed _ ih => rw [lines_append_returnFeed hfeed, ih]

/-- A character in front of a text belongs to its first line. -/
theorem HasLines.cons {c : Char} {cs line : List Char} {rest : List (List Char)} (hc : c ≠ '\n')
    (hreturn : c = '\r' → cs.head? ≠ some '\n') (h : HasLines cs (line :: rest)) :
    HasLines (c :: cs) ((c :: line) :: rest) := by
  have hcons {line : List Char} (hfeed : '\n' ∉ line) : '\n' ∉ c :: line :=
    List.not_mem_cons_of_ne_of_not_mem hc.symm hfeed
  cases h with
  | unended hne hfeed => exact .unended (List.cons_ne_nil _ _) (hcons hfeed)
  | returnFeed hfeed h => exact .returnFeed (hcons hfeed) h
  | feed hfeed hlast h =>
    apply HasLines.feed (hcons hfeed) _ h
    cases line with
    | nil => simpa using fun hcr => hreturn hcr rfl
    | cons d line => simpa using hlast

theorem hasLines_lines (cs : List Char) : HasLines cs (lines cs) := by
  fun_induction lines cs with
  | case1 => exact .none
  | case2 cs ih =>
    show HasLines ([] ++ '\n' :: cs) _
    exact .feed List.not_mem_nil (by simp) ih
  | case3 cs ih =>
    show HasLines ([] ++ '\r' :: '\n' :: cs) _
    exact .returnFeed List.not_mem_nil ih
  | case4 c cs hc hreturn hnone ih =>
    rw [hnone] at ih
    cases ih
    exact .unended (List.cons_ne_nil _ _) (by simpa using Ne.symm hc)
  | case5 c cs hc hreturn line rest hsome ih =>
    rw [hsome] at ih
    apply ih.cons hc
    intro hcr hhead
    obtain ⟨tail, rfl⟩ := List.head?_eq_some_iff.mp hhead
    exact hreturn tail hcr rfl

/-- A text has exactly the lines that are read. -/
theorem lines_eq_iff {cs : List Char} {ls : List (List Char)} : lines cs = ls ↔ HasLines cs ls :=
  ⟨fun h => h ▸ hasLines_lines cs, HasLines.lines_eq⟩

/-- Two texts that meet at the end of a line have the lines of both. What follows a line end is
empty or ends like the whole. -/
theorem HasLines.append {cs ds : List Char} {ls ls' : List (List Char)} (h : HasLines cs ls)
    (hend : cs = [] ∨ cs.getLast? = some '\n') (h' : HasLines ds ls') :
    HasLines (cs ++ ds) (ls ++ ls') := by
  have hrest {line rest : List Char} (hlast : (line ++ '\n' :: rest).getLast? = some '\n') :
      rest = [] ∨ rest.getLast? = some '\n' := by
    cases rest with
    | nil => exact .inl rfl
    | cons c rest => exact .inr (by simpa using hlast)
  induction h with
  | none => exact h'
  | unended hne hfeed =>
    rcases hend with hnil | hlast
    · exact absurd hnil hne
    · exact absurd (List.mem_of_getLast? hlast) hfeed
  | @feed line cs ls hfeed hreturn _ ih =>
    rcases hend with hnil | hlast
    · simp at hnil
    · rw [List.append_assoc, List.cons_append, List.cons_append]
      exact .feed hfeed hreturn (ih (hrest hlast))
  | @returnFeed line cs ls hfeed _ ih =>
    rcases hend with hnil | hlast
    · simp at hnil
    · rw [List.append_assoc, List.cons_append, List.cons_append, List.cons_append]
      have hlast' : (line ++ ['\r'] ++ '\n' :: cs).getLast? = some '\n' := by
        simpa using hlast
      exact .returnFeed hfeed (ih (hrest hlast'))

/-! ## Separators -/

theorem splitAtFirst_append {c : Char} {before : List Char} (h : c ∉ before) (behind : List Char) :
    splitAtFirst c (before ++ c :: behind) = some (before, behind) := by
  have hbefore : ∀ d ∈ before, (d != c) = true := by
    rintro d hd
    exact bne_iff_ne.mpr (ne_of_mem_of_not_mem hd h)
  have hdrop : (before ++ c :: behind).dropWhile (· != c) = c :: behind := by
    rw [List.dropWhile_append_of_pos hbefore, List.dropWhile_cons_of_neg (by simp)]
  have htake : (before ++ c :: behind).takeWhile (· != c) = before := by
    rw [List.takeWhile_append_of_pos hbefore, List.takeWhile_cons_of_neg (by simp), List.append_nil]
  rw [splitAtFirst, hdrop, htake]

/-- The two parts around the first separator. -/
theorem splitAtFirst_eq_some_iff {c : Char} {cs before behind : List Char} :
    splitAtFirst c cs = some (before, behind) ↔ cs = before ++ c :: behind ∧ c ∉ before := by
  constructor
  · intro h
    unfold splitAtFirst at h
    split at h
    · cases h
    rename_i d tail hdrop
    cases h
    have hd : d = c := by
      have hhead := List.head?_dropWhile_not (· != c) cs
      simpa [hdrop] using hhead
    constructor
    · subst hd
      rw [← hdrop, List.takeWhile_append_dropWhile]
    · intro hmem
      exact absurd (List.mem_takeWhile_imp hmem) (by simp)
  · rintro ⟨rfl, h⟩
    exact splitAtFirst_append h behind

/-! ## Blanks around a text -/

/-- A text is made of a core that neither starts nor ends with a blank, and of blanks around it. -/
def HasCore (cs core : List Char) : Prop :=
  ∃ front back, cs = front ++ core ++ back ∧ (∀ c ∈ front ++ back, isBlank c = true) ∧
    (∀ c ∈ core.head?, isBlank c = false) ∧ ∀ c ∈ core.getLast?, isBlank c = false

theorem dropWhile_isBlank_append {front cs : List Char} (hfront : ∀ c ∈ front, isBlank c = true)
    (hcs : ∀ c ∈ cs.head?, isBlank c = false) : (front ++ cs).dropWhile isBlank = cs := by
  rw [List.dropWhile_append_of_pos hfront]
  cases cs with
  | nil => rfl
  | cons c cs => exact List.dropWhile_cons_of_neg (by simp [hcs c rfl])

theorem HasCore.trimmed_eq {cs core : List Char} (h : HasCore cs core) : trimmed cs = core := by
  obtain ⟨front, back, rfl, hblank, hhead, hlast⟩ := h
  rw [List.forall_mem_append] at hblank
  obtain ⟨hfront, hback⟩ := hblank
  have hreverse : ∀ c ∈ back.reverse, isBlank c = true := by simpa using hback
  unfold trimmed
  by_cases hcore : core = []
  · have hall : ∀ c ∈ front ++ [] ++ back, isBlank c = true := by
      rw [List.append_nil, List.forall_mem_append]
      exact ⟨hfront, hback⟩
    rw [hcore, List.dropWhile_eq_nil_iff.mpr hall]
    rfl
  · have hhead' : ∀ c ∈ (core ++ back).head?, isBlank c = false := by
      rwa [List.head?_append_of_ne_nil core hcore]
    have hlast' : ∀ c ∈ core.reverse.head?, isBlank c = false := by
      rwa [List.head?_reverse]
    rw [List.append_assoc, dropWhile_isBlank_append hfront hhead', List.reverse_append,
      dropWhile_isBlank_append hreverse hlast', List.reverse_reverse]

theorem hasCore_trimmed (cs : List Char) : HasCore cs (trimmed cs) := by
  have htrimmed : trimmed cs = (cs.dropWhile isBlank).rdropWhile isBlank := rfl
  rw [htrimmed]
  generalize hrest : cs.dropWhile isBlank = rest
  refine ⟨cs.takeWhile isBlank, rest.rtakeWhile isBlank, ?_, ?_, ?_, ?_⟩
  · rw [List.append_assoc, List.rdropWhile_append_rtakeWhile, ← hrest,
      List.takeWhile_append_dropWhile]
  · rw [List.forall_mem_append]
    exact ⟨fun c => List.mem_takeWhile_imp, fun c => List.mem_rtakeWhile_imp⟩
  · intro c hc
    obtain ⟨tail, htail⟩ := List.rdropWhile_prefix isBlank rest
    have hhead : (cs.dropWhile isBlank).head? = some c := by
      rw [hrest, ← htail]
      exact List.mem_head?_append_of_mem_head? hc
    have hnot := List.head?_dropWhile_not isBlank cs
    rw [hhead] at hnot
    exact hnot
  · intro c hc
    obtain ⟨hne, rfl⟩ := List.mem_getLast?_eq_getLast hc
    exact Bool.eq_false_iff.mpr (List.rdropWhile_last_not isBlank rest hne)

/-- A text has exactly the core that is left by trimming. -/
theorem trimmed_eq_iff {cs core : List Char} : trimmed cs = core ↔ HasCore cs core :=
  ⟨fun h => h ▸ hasCore_trimmed cs, HasCore.trimmed_eq⟩

/-- A text without blanks is its own core. -/
theorem hasCore_self {cs : List Char} (h : ∀ c ∈ cs, isBlank c = false) : HasCore cs cs := by
  refine ⟨[], [], by simp, by simp, ?_, ?_⟩
  · exact fun c hc => h c (List.mem_of_mem_head? hc)
  · exact fun c hc => h c (List.mem_of_mem_getLast? hc)

/-- Blanks in front of a core stand outside it. -/
theorem HasCore.cons {c : Char} {cs core : List Char} (hc : isBlank c = true)
    (h : HasCore cs core) : HasCore (c :: cs) core := by
  obtain ⟨front, back, rfl, hblank, hhead, hlast⟩ := h
  exact ⟨c :: front, back, rfl, List.forall_mem_cons.mpr ⟨hc, hblank⟩, hhead, hlast⟩

/-! ## Numbers -/

/-- One or more decimal digits and the number that they denote. -/
inductive DigitText : List Char → Nat → Prop where
  | one {d : Nat} (hd : d < 10) : DigitText [Nat.digitChar d] d
  | more {ds : List Char} {n d : Nat} (h : DigitText ds n) (hd : d < 10) :
      DigitText (ds ++ [Nat.digitChar d]) (10 * n + d)

/-- A number in decimal digits behind an optional plus sign. -/
inductive NaturalText : List Char → Nat → Prop where
  | bare {ds : List Char} {n : Nat} (h : DigitText ds n) : NaturalText ds n
  | plus {ds : List Char} {n : Nat} (h : DigitText ds n) : NaturalText ('+' :: ds) n

theorem exists_digitChar {c : Char} (h : c.isDigit = true) : ∃ d < 10, c = Nat.digitChar d := by
  obtain ⟨hlow, hhigh⟩ := Char.isDigit_iff_toNat.mp h
  change 48 ≤ c.toNat at hlow
  change c.toNat ≤ 57 at hhigh
  have hd : c.toNat - 48 < 10 := by omega
  refine ⟨c.toNat - 48, hd, Char.toNat_inj.mp ?_⟩
  rw [Nat.toNat_digitChar_of_lt_ten hd]
  omega

/-- One more digit behind the digits of a number. -/
theorem ofDigitChars_append_digitChar (ds : List Char) {d : Nat} (hd : d < 10) :
    Nat.ofDigitChars 10 (ds ++ [Nat.digitChar d]) 0 = 10 * Nat.ofDigitChars 10 ds 0 + d := by
  rw [Nat.ofDigitChars_append, Nat.ofDigitChars_cons_digitChar_of_lt_ten hd, Nat.ofDigitChars_nil]

theorem DigitText.isDigit {ds : List Char} {n : Nat} (h : DigitText ds n) :
    ∀ c ∈ ds, c.isDigit = true := by
  induction h with
  | one hd => simpa [Nat.isDigit_digitChar] using hd
  | more _ hd ih =>
    rw [List.forall_mem_append]
    exact ⟨ih, by simpa [Nat.isDigit_digitChar] using hd⟩

theorem DigitText.ne_nil {ds : List Char} {n : Nat} (h : DigitText ds n) : ds ≠ [] := by
  cases h <;> simp

theorem DigitText.not_mem {ds : List Char} {n : Nat} (h : DigitText ds n) {c : Char}
    (hc : c.isDigit = false) : c ∉ ds := by
  intro hmem
  rw [h.isDigit c hmem] at hc
  cases hc

/-- A digit is no sign. -/
theorem DigitText.signSplit_append {ds : List Char} {n : Nat} (h : DigitText ds n)
    (rest : List Char) : signSplit (ds ++ rest) = (false, ds ++ rest) := by
  obtain ⟨c, cs, rfl⟩ := List.exists_cons_of_ne_nil h.ne_nil
  have hne : ∀ d, d.isDigit = false → ∀ tail, c :: cs ++ rest ≠ d :: tail := by
    rintro d hd tail heq
    obtain ⟨rfl, -⟩ := List.cons.inj heq
    exact h.not_mem hd List.mem_cons_self
  exact signSplit.eq_3 _ (hne '-' (by decide)) (hne '+' (by decide))

theorem DigitText.ofDigitChars {ds : List Char} {n : Nat} (h : DigitText ds n) :
    Nat.ofDigitChars 10 ds 0 = n := by
  induction h with
  | @one d hd => simpa [Nat.ofDigitChars_nil] using ofDigitChars_append_digitChar [] hd
  | more _ hd ih => rw [ofDigitChars_append_digitChar _ hd, ih]

theorem digitText_ofDigitChars {ds : List Char} (hne : ds ≠ [])
    (hdigits : ∀ c ∈ ds, c.isDigit = true) : DigitText ds (Nat.ofDigitChars 10 ds 0) := by
  induction ds using List.reverseRecOn with
  | nil => exact absurd rfl hne
  | append_singleton ds c ih =>
    rw [List.forall_mem_append] at hdigits
    obtain ⟨d, hd, rfl⟩ := exists_digitChar (hdigits.2 c (List.mem_singleton_self c))
    rw [ofDigitChars_append_digitChar ds hd]
    by_cases hds : ds = []
    · rw [hds]
      simpa [Nat.ofDigitChars_nil] using DigitText.one hd
    · exact .more (ih hds hdigits.1) hd

/-- The digits of a number denote it. -/
theorem digitText_toDigits (n : Nat) : DigitText (Nat.toDigits 10 n) n := by
  have h := digitText_ofDigitChars (Nat.toDigits_ne_nil (n := n) (b := 10)) fun c hc =>
    Nat.isDigit_of_mem_toDigits (by decide) (by decide) hc
  rwa [Nat.ofDigitChars_ten_toDigits] at h

/-- The number that digits denote is read, and nothing else is. -/
theorem digits?_eq_some_iff {cs : List Char} {n : Nat} : digits? cs = some n ↔ DigitText cs n := by
  unfold digits?
  constructor
  · intro h
    obtain ⟨⟨hne, hdigits⟩, hn⟩ := Option.ite_none_right_eq_some.mp h
    rw [← Option.some.inj hn]
    exact digitText_ofDigitChars hne (List.all_eq_true.mp hdigits)
  · intro h
    rw [if_pos ⟨h.ne_nil, List.all_eq_true.mpr h.isDigit⟩, h.ofDigitChars]

theorem digits?_unsigned_eq_some_iff {cs : List Char} {n : Nat} :
    digits? (unsigned cs) = some n ↔ NaturalText cs n := by
  rw [digits?_eq_some_iff]
  constructor
  · intro h
    unfold unsigned at h
    split at h
    · exact .plus h
    · exact .bare h
  · rintro (h | h)
    · have hsign : ∀ ds, cs = '+' :: ds → False := by
        rintro ds rfl
        exact absurd (h.isDigit '+' List.mem_cons_self) (by decide)
      rwa [unsigned.eq_2 cs hsign]
    · exact h

/-- The numbers of at most some number of bits are read, and nothing else is. -/
theorem natural?_eq_some_iff {bits : Nat} {cs : List Char} {n : Nat} :
    natural? bits cs = some n ↔ NaturalText cs n ∧ n < Nat.pow 2 bits := by
  rw [natural?, Option.filter_eq_some_iff, digits?_unsigned_eq_some_iff, decide_eq_true_iff]

end IoWatch
