import IoWatch.Pattern.CharSet
import IoWatch.Pattern.Group

/-!
# Reading of patterns

A pattern is read token by token, beside the groups that are open. Whether spacing means anything is
a switch, which the end of a group sets back. Counted repetitions are not read, so an opening brace
stands for itself in a set only.

## Main definitions

* `Pattern.Token`, `Pattern.readToken`: what stands next in a pattern
* `Pattern.Level`, `Pattern.Reader`: a group that is not closed yet, and all of them
* `Pattern.Reader.take`: the groups after a token
* `Pattern.parse`: the pattern of a text

## Main results

* `Pattern.length_lt_of_readToken`: a token takes at least one character
-/

namespace IoWatch

namespace Pattern

/-! ## Tokens -/

/-- What stands next in a pattern. -/
inductive Token where
  /-- A pattern without groups. -/
  | simple (p : Pattern)
  | repetition
  | branch
  /-- The start of a group, or switches. -/
  | start (g : GroupStart)
  | closing

/-- A text behind the mark of a short repetition. -/
def skipQuestionMark : List Char → List Char
  | '?' :: s => s
  | s => s

/-- The meaning of a character that opens nothing. -/
def plain? : Char → Option Token
  | '?' | '*' | '+' => some .repetition
  | '{' => none
  | '.' => some (.simple (.atom .dot))
  | '^' => some (.simple (.atom (.anchor .lineStart)))
  | '$' => some (.simple (.atom (.anchor .lineEnd)))
  | '|' => some .branch
  | ')' => some .closing
  | c => some (.simple (.atom (.literal ⟨c, false⟩)))

/-- What stands next in a pattern, and the text behind it. -/
def readToken (spaced : Bool) : List Char → Option (Token × List Char)
  | [] => none
  | '(' :: s => (readGroupStart spaced s).map fun (g, rest) => (.start g, rest)
  | '[' :: s =>
    let (o, s) := readOpening spaced s
    (readSet spaced [] o s).map fun ((isNegated, body), rest) =>
      (.simple (.set isNegated body), rest)
  | '\\' :: s => (readEscape spaced s).map fun (a, rest) => (.simple (.atom a), rest)
  | c :: s =>
    match plain? c with
    | some .repetition => some (.repetition, skipQuestionMark s)
    | token => token.map fun t => (t, s)

theorem length_skipQuestionMark_le (s : List Char) : (skipQuestionMark s).length ≤ s.length := by
  unfold skipQuestionMark
  split <;> simp

theorem length_lt_of_readToken {spaced : Bool} {s rest : List Char} {t : Token}
    (h : readToken spaced s = some (t, rest)) : rest.length < s.length := by
  unfold readToken at h
  split at h
  · simp at h
  · rename_i s'
    obtain ⟨⟨g, rest'⟩, hg, h⟩ := Option.map_eq_some_iff.1 h
    have := length_le_of_readGroupStart hg
    simp only [Prod.mk.injEq] at h
    rw [← h.2, List.length_cons]
    omega
  · rename_i s'
    have hle := length_readOpening_le spaced s'
    generalize readOpening spaced s' = opening at h hle
    obtain ⟨o, u⟩ := opening
    obtain ⟨⟨set, rest'⟩, hs, h⟩ := Option.map_eq_some_iff.1 h
    have := length_lt_of_readSet hs
    simp only [Prod.mk.injEq] at h
    simp only [List.length_cons, ← h.2] at hle ⊢
    omega
  · rename_i s'
    obtain ⟨⟨a, rest'⟩, ha, h⟩ := Option.map_eq_some_iff.1 h
    have := length_lt_of_readEscape ha
    simp only [Prod.mk.injEq] at h
    rw [← h.2, List.length_cons]
    omega
  · rename_i c s' _ _ _
    split at h
    · have := length_skipQuestionMark_le s'
      simp only [Option.some.injEq, Prod.mk.injEq] at h
      rw [← h.2, List.length_cons]
      omega
    · obtain ⟨_, _, h⟩ := Option.map_eq_some_iff.1 h
      simp only [Prod.mk.injEq] at h
      simp [← h.2]

/-! ## Groups that are open -/

/-- A group that is not closed yet, or the whole pattern. -/
structure Level where
  change : Change
  /-- Whether spacing means nothing in it, as far as it is read. -/
  spaced : Bool
  /-- Its branches that are complete, the last one first. -/
  branches : List Pattern
  /-- The parts of its last branch, the last one first. -/
  parts : List Pattern

namespace Level

/-- A group after one more part. -/
def push (l : Level) (p : Pattern) : Level := { l with parts := p :: l.parts }

/-- A group after its last branch is completed. -/
def nextBranch (l : Level) : Level :=
  { l with branches := .sequence l.parts.reverse :: l.branches, parts := [] }

/-- What stands in a group. -/
def body (l : Level) : Pattern := .choice l.nextBranch.branches.reverse

/-- A group after the mark of a repetition, which needs a part to repeat. -/
def repeatLast? (l : Level) : Option Level :=
  match l.parts with
  | [] | .change _ :: _ => none
  | p :: parts => some { l with parts := .repeated p :: parts }

end Level

/-- What is read of a pattern. -/
structure Reader where
  inner : Level
  /-- The groups around it, the innermost first. -/
  outer : List Level
  /-- The names of all groups so far. -/
  names : List (List Char)

namespace Reader

/-- Nothing is read yet. -/
def empty : Reader := ⟨⟨{}, false, [], []⟩, [], []⟩

/-- What is read after the start of a group, or after switches. Two groups have different names. -/
def start? (r : Reader) : GroupStart → Option Reader
  | .change c =>
    some { r with inner :=
      { r.inner.push (.change c) with spaced := c.apply .spaced r.inner.spaced } }
  | .group c name =>
    if name.any (r.names.contains ·) then none
    else some ⟨⟨c, c.apply .spaced r.inner.spaced, [], []⟩, r.inner :: r.outer,
      name.toList ++ r.names⟩

/-- What is read after the end of a group, which must be open. -/
def close? (r : Reader) : Option Reader :=
  match r.outer with
  | [] => none
  | up :: outer => some { r with inner := up.push (.group r.inner.change r.inner.body), outer }

/-- What is read after a token. -/
def take (r : Reader) : Token → Option Reader
  | .simple p => some { r with inner := r.inner.push p }
  | .repetition => r.inner.repeatLast?.map fun inner => { r with inner }
  | .branch => some { r with inner := r.inner.nextBranch }
  | .start g => r.start? g
  | .closing => r.close?

/-- The pattern at the end of its text, where no group may be open. -/
def finish (r : Reader) : Option Pattern :=
  match r.outer with
  | [] => some r.inner.body
  | _ => none

/-- The pattern after the rest of its text. -/
def run (r : Reader) (s : List Char) : Option Pattern :=
  match _hs : skipSpacing r.inner.spaced s with
  | [] => r.finish
  | c :: cs =>
    match _ht : readToken r.inner.spaced (c :: cs) with
    | none => none
    | some (token, rest) =>
      match r.take token with
      | none => none
      | some next => next.run rest
termination_by s.length
decreasing_by
  have := length_lt_of_readToken _ht
  have := length_skipSpacing_le r.inner.spaced s
  rw [_hs] at this
  omega

end Reader

/-- The pattern of a text. -/
def parse (s : List Char) : Option Pattern := Reader.empty.run s

end Pattern

end IoWatch
