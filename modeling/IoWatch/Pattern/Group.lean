import IoWatch.Pattern
import IoWatch.Pattern.Spacing
import IoWatch.Text.Alphanumeric

/-!
# Starts of groups

Behind its opening bracket a group may have a name, or switches that are set in it. Switches without
a group are set up to the end of the group around them.

## Main definitions

* `Pattern.readName`: the name of a group
* `Pattern.Change.read`: the switches that are set, up to the sign that ends them
* `Pattern.GroupStart`, `Pattern.readGroupStart`: what stands behind an opening bracket

## Main results

* `Pattern.length_le_of_readGroupStart`: reading never makes a text longer
-/

namespace IoWatch

namespace Pattern

/-! ## Names -/

/-- Whether a character may start the name of a group. -/
def isNameStart (c : Char) : Bool := c = '_' || isAlphabetic c

/-- Whether a character may stand further on in the name of a group. -/
def isNamePart (c : Char) : Bool :=
  c = '_' || c = '.' || c = '[' || c = ']' || isAlphanumeric c

/-- A name up to the angle bracket that ends it, and the text behind it. -/
def readName (s : List Char) : Option (List Char × List Char) :=
  match s.takeWhile (· ≠ '>'), s.dropWhile (· ≠ '>') with
  | c :: cs, '>' :: rest =>
    if isNameStart c && cs.all isNamePart then some (c :: cs, rest) else none
  | _, _ => none

/-! ## Switches -/

/-- The switch of a letter. -/
def Switch.ofChar? : Char → Option Switch
  | 'i' => some .ignoreCase
  | 'm' => some .multiLine
  | 's' => some .dotMatchesAll
  | 'U' => some .swapGreed
  | 'u' => some .unicode
  | 'R' => some .carriageReturn
  | 'x' => some .spaced
  | _ => none

namespace Change

/-- A change of one more switch. -/
def add (c : Change) (isOff : Bool) (s : Switch) : Change :=
  if isOff then { c with off := c.off ++ [s] } else { c with on := c.on ++ [s] }

/-- A change, the sign that ends it, and the text behind that sign. A hyphen may stand once and not
at the end, and no switch may be named twice. -/
def readFrom (c : Change) (isOff afterHyphen : Bool) :
    List Char → Option ((Change × Char) × List Char)
  | [] => none
  | d :: s =>
    if d = ':' ∨ d = ')' then if afterHyphen then none else some ((c, d), s)
    else if d = '-' then if isOff then none else readFrom c true true s
    else
      (Switch.ofChar? d).bind fun w =>
        if c.names w then none else readFrom (c.add isOff w) isOff false s

/-- The change at the start of a text, the sign that ends it, and the text behind that sign. -/
def read (s : List Char) : Option ((Change × Char) × List Char) := readFrom {} false false s

end Change

/-! ## Starts -/

/-- What stands behind an opening bracket. -/
inductive GroupStart where
  /-- The start of a group: the switches that are set in it, and its name, if it has one. -/
  | group (c : Change) (name : Option (List Char))
  /-- Switches, and the closing bracket. -/
  | change (c : Change)
  deriving DecidableEq, Repr

/-- What stands behind an opening bracket, and the text behind it. -/
def readGroupStart (spaced : Bool) (s : List Char) : Option (GroupStart × List Char) :=
  match skipSpacing spaced s with
  | '?' :: 'P' :: '<' :: s => (readName s).map fun (name, rest) => (.group {} (some name), rest)
  | '?' :: '<' :: s => (readName s).map fun (name, rest) => (.group {} (some name), rest)
  | '?' :: s =>
    (Change.read s).bind fun ((c, ending), rest) =>
      if ending = ':' then some (.group c none, rest)
      else if c.isEmpty then none
      else some (.change c, rest)
  | s => some (.group {} none, s)

/-! ## Progress -/

theorem length_le_of_readName {s rest name : List Char} (h : readName s = some (name, rest)) :
    rest.length ≤ s.length := by
  unfold readName at h
  have hd := (List.dropWhile_sublist (· ≠ '>') (l := s)).length_le
  split at h
  · rename_i c cs rest' _ hr
    rw [hr, List.length_cons] at hd
    split at h
    · simp only [Option.some.injEq, Prod.mk.injEq] at h
      rw [← h.2]
      omega
    · simp at h
  · simp at h

theorem Change.length_le_of_readFrom {c : Change} {isOff afterHyphen : Bool} {s rest : List Char}
    {e : Change × Char} (h : c.readFrom isOff afterHyphen s = some (e, rest)) :
    rest.length ≤ s.length := by
  induction s generalizing c isOff afterHyphen with
  | nil => simp [readFrom] at h
  | cons d s ih =>
    rw [readFrom] at h
    rw [List.length_cons]
    split at h
    · split at h
      · simp at h
      · simp only [Option.some.injEq, Prod.mk.injEq] at h
        rw [← h.2]
        omega
    · split at h
      · split at h
        · simp at h
        · exact Nat.le_succ_of_le (ih h)
      · obtain ⟨w, _, h⟩ := Option.bind_eq_some_iff.1 h
        split at h
        · simp at h
        · exact Nat.le_succ_of_le (ih h)

theorem length_le_of_readGroupStart {spaced : Bool} {s rest : List Char} {g : GroupStart}
    (h : readGroupStart spaced s = some (g, rest)) : rest.length ≤ s.length := by
  have hle := length_skipSpacing_le spaced s
  unfold readGroupStart at h
  split at h
  case h_3 s' hs =>
    rw [hs, List.length_cons] at hle
    obtain ⟨⟨⟨c, ending⟩, rest'⟩, hc, h⟩ := Option.bind_eq_some_iff.1 h
    have := Change.length_le_of_readFrom hc
    dsimp only at h
    split at h
    · simp only [Option.some.injEq, Prod.mk.injEq] at h
      rw [← h.2]
      omega
    · split at h
      · simp at h
      · simp only [Option.some.injEq, Prod.mk.injEq] at h
        rw [← h.2]
        omega
  case h_4 =>
    simp only [Option.some.injEq, Prod.mk.injEq] at h
    rw [← h.2]
    exact hle
  all_goals
    rename_i hs
    obtain ⟨⟨name, rest'⟩, hn, h⟩ := Option.map_eq_some_iff.1 h
    have := length_le_of_readName hn
    simp only [Prod.mk.injEq] at h
    simp only [hs, List.length_cons] at hle
    rw [← h.2]
    omega

end Pattern

end IoWatch
