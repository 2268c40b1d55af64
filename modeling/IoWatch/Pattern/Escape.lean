import IoWatch.Pattern
import IoWatch.Pattern.Spacing

/-!
# Escapes in patterns

A backslash takes the meaning from a mark or gives one to a letter. Three letters write a character
by a fixed number of hexadecimal digits. There is no escape for a character's Unicode properties,
and none that needs a closing brace.

## Main definitions

* `Pattern.readHex`: the number of some hexadecimal digits
* `Pattern.readEscape`: what stands behind a backslash

## Main results

* `Pattern.length_lt_of_readEscape`: an escape takes at least one character
-/

namespace IoWatch

namespace Pattern

/-- The value of a hexadecimal digit. -/
def hexDigit? (c : Char) : Option Nat :=
  if '0' ≤ c ∧ c ≤ '9' then some (c.toNat - 48)
  else if 'a' ≤ c ∧ c ≤ 'f' then some (c.toNat - 87)
  else if 'A' ≤ c ∧ c ≤ 'F' then some (c.toNat - 55)
  else none

/-- The number of so many hexadecimal digits behind those of `value`, and the text behind them. -/
def readHex (spaced : Bool) (value : Nat) : (count : Nat) → List Char → Option (Nat × List Char)
  | 0, s => some (value, s)
  | _ + 1, [] => none
  | count + 1, c :: s =>
    (hexDigit? c).bind fun d => readHex spaced (16 * value + d) count (skipSpacing spaced s)

/-- The character of so many hexadecimal digits, and the text behind them. -/
def readCodePoint (spaced : Bool) (count : Nat) (s : List Char) : Option (Atom × List Char) :=
  (readHex spaced 0 count (skipSpacing spaced s)).bind fun (n, rest) =>
    if n.isValidChar then some (.literal ⟨Char.ofNat n, count = 2⟩, rest) else none

/-- Whether a backslash may stand in front of a character that stands for itself. -/
def isEscapable (c : Char) : Bool := c.toNat < 128 && !c.isAlphanum && c ≠ '<' && c ≠ '>'

/-- What one character behind a backslash means. -/
def escaped? : Char → Option Atom
  | 'd' => some (.shorthand .digits false)
  | 'D' => some (.shorthand .digits true)
  | 's' => some (.shorthand .blanks false)
  | 'S' => some (.shorthand .blanks true)
  | 'w' => some (.shorthand .wordChars false)
  | 'W' => some (.shorthand .wordChars true)
  | 'a' => some (.literal ⟨'\x07', false⟩)
  | 'f' => some (.literal ⟨'\x0c', false⟩)
  | 't' => some (.literal ⟨'\t', false⟩)
  | 'n' => some (.literal ⟨'\n', false⟩)
  | 'r' => some (.literal ⟨'\r', false⟩)
  | 'v' => some (.literal ⟨'\x0b', false⟩)
  | 'A' => some (.anchor .textStart)
  | 'z' => some (.anchor .textEnd)
  | 'b' => some (.anchor .wordEdge)
  | 'B' => some (.anchor .noWordEdge)
  | '<' => some (.anchor .wordStart)
  | '>' => some (.anchor .wordEnd)
  | c => if isEscapable c then some (.literal ⟨c, false⟩) else none

/-- How many hexadecimal digits stand behind a letter. -/
def hexCount? : Char → Option Nat
  | 'x' => some 2
  | 'u' => some 4
  | 'U' => some 8
  | _ => none

/-- What stands behind a backslash, and the text behind it. -/
def readEscape (spaced : Bool) : List Char → Option (Atom × List Char)
  | [] => none
  | c :: s =>
    match hexCount? c with
    | some count => readCodePoint spaced count s
    | none => (escaped? c).map fun a => (a, s)

/-! ## Progress -/

theorem length_le_of_readHex {spaced : Bool} {value count : Nat} {s rest : List Char} {n : Nat}
    (h : readHex spaced value count s = some (n, rest)) : rest.length ≤ s.length := by
  induction count generalizing value s with
  | zero => simp only [readHex, Option.some.injEq, Prod.mk.injEq] at h; simp [h.2]
  | succ count ih =>
    cases s with
    | nil => simp [readHex] at h
    | cons c s =>
      rw [readHex, Option.bind_eq_some_iff] at h
      obtain ⟨d, _, h⟩ := h
      have := ih h
      have := length_skipSpacing_le spaced s
      simp only [List.length_cons]
      omega

theorem length_lt_of_readEscape {spaced : Bool} {s rest : List Char} {a : Atom}
    (h : readEscape spaced s = some (a, rest)) : rest.length < s.length := by
  cases s with
  | nil => simp [readEscape] at h
  | cons c s =>
    simp only [readEscape] at h
    split at h
    · rw [readCodePoint, Option.bind_eq_some_iff] at h
      obtain ⟨⟨n, r⟩, hr, h⟩ := h
      have := length_le_of_readHex hr
      have := length_skipSpacing_le spaced s
      by_cases hn : n.isValidChar
      · simp only [hn, if_true, Option.some.injEq, Prod.mk.injEq] at h
        simp only [List.length_cons, ← h.2]
        omega
      · simp [hn] at h
    · rw [Option.map_eq_some_iff] at h
      obtain ⟨_, _, h⟩ := h
      simp only [Prod.mk.injEq] at h
      simp [← h.2]

end Pattern

end IoWatch
