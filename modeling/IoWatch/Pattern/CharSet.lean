import IoWatch.Pattern.Escape

/-!
# Sets in brackets

A set lists characters, ranges, classes and further sets, and may combine what is listed before a
double sign with what is listed behind it. A bracket or hyphens right at the start of a set stand
for themselves, and so does a hyphen right at its end.

## Main definitions

* `Pattern.SetToken`, `Pattern.readSetToken`: what stands next in a set
* `Pattern.OpenSet`: a set that is not closed yet
* `Pattern.readSet`: the rest of a set

## Main results

* `Pattern.length_lt_of_readSetToken`, `Pattern.length_lt_of_readSet`: reading takes at least one
  character
-/

namespace IoWatch

namespace Pattern

/-! ## Parts of sets -/

/-- What an atom means in a set; places and the dot mean nothing there. -/
def Atom.inSet? : Atom → Option CharSet
  | .literal l => some (.literal l)
  | .shorthand kind isNegated => some (.shorthand kind isNegated)
  | .dot | .anchor _ => none

/-- The characters between two, if both are characters and the first one is not above the last. -/
def range? : Atom → Atom → Option CharSet
  | .literal first, .literal last =>
    if first.char ≤ last.char then some (.range first last) else none
  | _, _ => none

/-- One character of a set or an escape, and the text behind it. -/
def readSetAtom (spaced : Bool) : List Char → Option (Atom × List Char)
  | [] => none
  | '\\' :: s => readEscape spaced s
  | c :: s => some (.literal ⟨c, false⟩, s)

/-- A character, shorthand or range, and the text behind it. A hyphen makes a range unless the set
ends behind it or another hyphen follows. -/
def readPart (spaced : Bool) (s : List Char) : Option (CharSet × List Char) :=
  match readSetAtom spaced s with
  | none => none
  | some (first, s) =>
    match skipSpacing spaced s with
    | '-' :: rest =>
      if peek? spaced rest = some ']' ∨ peek? spaced rest = some '-' then
        first.inSet?.map fun part => (part, '-' :: rest)
      else
        match readSetAtom spaced (skipSpacing spaced rest) with
        | none => none
        | some (last, rest) => (range? first last).map fun part => (part, rest)
    | rest => first.inSet?.map fun part => (part, rest)

/-- The names of classes of ASCII characters. -/
def classNames : List String :=
  ["alnum", "alpha", "ascii", "blank", "cntrl", "digit", "graph", "lower", "print", "punct",
    "space", "upper", "word", "xdigit"]

/-- Whether a text starts with a caret, and the text behind it. -/
def readCaret : List Char → Bool × List Char
  | '^' :: s => (true, s)
  | s => (false, s)

/-- The class of a name between colons, behind the first of its two brackets, and the text behind
it. -/
def readClass : List Char → Option (CharSet × List Char)
  | ':' :: s =>
    let (isNegated, s) := readCaret s
    let name := String.ofList (s.takeWhile (· ≠ ':'))
    match s.dropWhile (· ≠ ':') with
    | ':' :: ']' :: rest => if name ∈ classNames then some (.named name isNegated, rest) else none
    | _ => none
  | _ => none

/-- The hyphens at the start of a text, and the text behind them. -/
def readHyphens (spaced : Bool) : List Char → List CharSet × List Char
  | '-' :: s =>
    let (hyphens, rest) := readHyphens spaced (skipSpacing spaced s)
    (.literal ⟨'-', false⟩ :: hyphens, rest)
  | s => ([], s)
termination_by s => s.length
decreasing_by
  have := length_skipSpacing_le spaced s
  simp only [List.length_cons]
  omega

/-! ## Sets that are open -/

/-- A set that is not closed yet. -/
structure OpenSet where
  isNegated : Bool
  /-- What is listed before the last double sign. -/
  left : Option (SetOperation × CharSet)
  /-- What is listed since, the last part first. -/
  parts : List CharSet

namespace OpenSet

/-- A set after one more part. -/
def push (o : OpenSet) (part : CharSet) : OpenSet := { o with parts := part :: o.parts }

/-- What is listed in a set. -/
def body (o : OpenSet) : CharSet :=
  match o.left with
  | none => .union o.parts.reverse
  | some (operation, left) => .combined operation left (.union o.parts.reverse)

/-- A set after a double sign. -/
def combine (o : OpenSet) (operation : SetOperation) : OpenSet :=
  { o with left := some (operation, o.body), parts := [] }

end OpenSet

/-- The start of a set behind its bracket, and the text behind it. -/
def readOpening (spaced : Bool) (s : List Char) : OpenSet × List Char :=
  let (isNegated, s) := readCaret (skipSpacing spaced s)
  match readHyphens spaced (skipSpacing spaced s) with
  | ([], ']' :: rest) => (⟨isNegated, none, [.literal ⟨']', false⟩]⟩, rest)
  | (hyphens, rest) => (⟨isNegated, none, hyphens⟩, rest)

/-! ## Reading -/

/-- What stands next in a set. -/
inductive SetToken where
  | part (c : CharSet)
  | operation (o : SetOperation)
  | opening (o : OpenSet)
  | closing

/-- What stands next in a set, and the text behind it. -/
def readSetToken (spaced : Bool) (s : List Char) : Option (SetToken × List Char) :=
  match skipSpacing spaced s with
  | ']' :: rest => some (.closing, rest)
  | '[' :: rest =>
    match readClass rest with
    | some (part, rest) => some (.part part, rest)
    | none =>
      let (o, rest) := readOpening spaced rest
      some (.opening o, rest)
  | '&' :: '&' :: rest => some (.operation .intersection, rest)
  | '-' :: '-' :: rest => some (.operation .difference, rest)
  | '~' :: '~' :: rest => some (.operation .symmetricDifference, rest)
  | s => (readPart spaced s).map fun (part, rest) => (.part part, rest)

theorem length_lt_of_readSetAtom {spaced : Bool} {s rest : List Char} {a : Atom}
    (h : readSetAtom spaced s = some (a, rest)) : rest.length < s.length := by
  unfold readSetAtom at h
  split at h
  · simp at h
  · have := length_lt_of_readEscape h
    simp only [List.length_cons]
    omega
  · simp only [Option.some.injEq, Prod.mk.injEq] at h
    simp [← h.2]

theorem length_lt_of_readPart {spaced : Bool} {s rest : List Char} {part : CharSet}
    (h : readPart spaced s = some (part, rest)) : rest.length < s.length := by
  unfold readPart at h
  split at h
  · simp at h
  · rename_i first s' hs
    have := length_lt_of_readSetAtom hs
    have hle := length_skipSpacing_le spaced s'
    split at h
    · rename_i rest' hr
      rw [hr, List.length_cons] at hle
      split at h
      · obtain ⟨_, _, h⟩ := Option.map_eq_some_iff.1 h
        simp only [Prod.mk.injEq] at h
        simp only [← h.2, List.length_cons]
        omega
      · split at h
        · simp at h
        · rename_i last rest'' hl
          have := length_lt_of_readSetAtom hl
          have := length_skipSpacing_le spaced rest'
          obtain ⟨_, _, h⟩ := Option.map_eq_some_iff.1 h
          simp only [Prod.mk.injEq] at h
          simp only [← h.2]
          omega
    · obtain ⟨_, _, h⟩ := Option.map_eq_some_iff.1 h
      simp only [Prod.mk.injEq] at h
      simp only [← h.2]
      omega

theorem length_readCaret_le (s : List Char) : (readCaret s).2.length ≤ s.length := by
  unfold readCaret
  split <;> simp

theorem length_lt_of_readClass {s rest : List Char} {part : CharSet}
    (h : readClass s = some (part, rest)) : rest.length < s.length := by
  unfold readClass at h
  split at h
  · rename_i s'
    have hc := length_readCaret_le s'
    generalize readCaret s' = caret at h hc
    obtain ⟨isNegated, t⟩ := caret
    have hd := (List.dropWhile_sublist (· ≠ ':') (l := t)).length_le
    dsimp only at h hc
    split at h
    · rename_i rest' hr
      rw [hr] at hd
      split at h
      · simp only [Option.some.injEq, Prod.mk.injEq] at h
        simp only [List.length_cons, ← h.2] at hd ⊢
        omega
      · simp at h
    · simp at h
  · simp at h

theorem length_readHyphens_le (spaced : Bool) (s : List Char) :
    (readHyphens spaced s).2.length ≤ s.length := by
  fun_induction readHyphens spaced s with
  | case1 s hyphens rest hr ih =>
    have := length_skipSpacing_le spaced s
    rw [hr] at ih
    simp only [List.length_cons] at ih ⊢
    omega
  | case2 s => simp

theorem length_readOpening_le (spaced : Bool) (s : List Char) :
    (readOpening spaced s).2.length ≤ s.length := by
  unfold readOpening
  have h₁ := length_skipSpacing_le spaced s
  have h₂ := length_readCaret_le (skipSpacing spaced s)
  generalize readCaret (skipSpacing spaced s) = caret at h₂
  obtain ⟨isNegated, t⟩ := caret
  have h₃ := length_skipSpacing_le spaced t
  have h₄ := length_readHyphens_le spaced (skipSpacing spaced t)
  dsimp only at h₂ ⊢
  split
  · rename_i rest hr
    rw [hr] at h₄
    simp only [List.length_cons] at h₄ ⊢
    omega
  · rename_i hyphens rest _ hr
    rw [hr] at h₄
    simp only at h₄ ⊢
    omega

theorem length_lt_of_readSetToken {spaced : Bool} {s rest : List Char} {t : SetToken}
    (h : readSetToken spaced s = some (t, rest)) : rest.length < s.length := by
  have hle := length_skipSpacing_le spaced s
  unfold readSetToken at h
  split at h
  case h_6 =>
    obtain ⟨⟨part, rest'⟩, hp, h⟩ := Option.map_eq_some_iff.1 h
    have := length_lt_of_readPart hp
    simp only [Prod.mk.injEq] at h
    rw [← h.2]
    omega
  case h_2 rest' hs =>
    rw [hs, List.length_cons] at hle
    split at h
    · rename_i part rest'' hc
      have := length_lt_of_readClass hc
      simp only [Option.some.injEq, Prod.mk.injEq] at h
      rw [← h.2]
      omega
    · have := length_readOpening_le spaced rest'
      simp only [Option.some.injEq, Prod.mk.injEq] at h
      rw [← h.2]
      omega
  all_goals
    rename_i hs
    simp only [Option.some.injEq, Prod.mk.injEq] at h
    simp only [hs, List.length_cons, h.2] at hle
    omega

/-- The rest of a set, whether it is of all other characters and what is listed in it, and the text
behind it. -/
def readSet (spaced : Bool) (outer : List OpenSet) (o : OpenSet) (s : List Char) :
    Option ((Bool × CharSet) × List Char) :=
  match _h : readSetToken spaced s with
  | none => none
  | some (.part part, rest) => readSet spaced outer (o.push part) rest
  | some (.operation operation, rest) => readSet spaced outer (o.combine operation) rest
  | some (.opening inner, rest) => readSet spaced (o :: outer) inner rest
  | some (.closing, rest) =>
    match outer with
    | [] => some ((o.isNegated, o.body), rest)
    | up :: outer => readSet spaced outer (up.push (.bracketed o.isNegated o.body)) rest
termination_by s.length
decreasing_by all_goals exact length_lt_of_readSetToken ‹_›

theorem length_lt_of_readSet {spaced : Bool} {outer : List OpenSet} {o : OpenSet}
    {s rest : List Char} {set : Bool × CharSet}
    (h : readSet spaced outer o s = some (set, rest)) : rest.length < s.length := by
  fun_induction readSet spaced outer o s with
  | case1 => simp at h
  | case2 _ _ _ _ _ ht ih => exact Nat.lt_trans (ih h) (length_lt_of_readSetToken ht)
  | case3 _ _ _ _ _ ht ih => exact Nat.lt_trans (ih h) (length_lt_of_readSetToken ht)
  | case4 _ _ _ _ _ ht ih => exact Nat.lt_trans (ih h) (length_lt_of_readSetToken ht)
  | case5 _ _ _ ht =>
    simp only [Option.some.injEq, Prod.mk.injEq] at h
    rw [← h.2]
    exact length_lt_of_readSetToken ht
  | case6 _ _ _ ht _ _ ih => exact Nat.lt_trans (ih h) (length_lt_of_readSetToken ht)

end Pattern

end IoWatch
