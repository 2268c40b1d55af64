import IoWatch.Text.Blank

/-!
# Spacing inside of patterns

In a spaced pattern blanks mean nothing, and neither does what follows a number sign on its line.
In every other pattern both stand for themselves.

## Main definitions

* `Pattern.skipSpacing`: a text behind its spacing
* `Pattern.peek?`: the character that is looked for behind a hyphen

## Main results

* `Pattern.length_skipSpacing_le`: skipping never makes a text longer
-/

namespace IoWatch

namespace Pattern

/-- A text behind the blanks and comments at its start. -/
def skipBlanks : (inComment : Bool) → List Char → List Char
  | _, [] => []
  | true, c :: cs => skipBlanks (c ≠ '\n') cs
  | false, c :: cs =>
    if isBlank c then skipBlanks false cs
    else if c = '#' then skipBlanks true cs
    else c :: cs

/-- A text behind its spacing, which only a spaced pattern has. -/
def skipSpacing (spaced : Bool) (s : List Char) : List Char :=
  if spaced then skipBlanks false s else s

theorem length_skipBlanks_le (inComment : Bool) (s : List Char) :
    (skipBlanks inComment s).length ≤ s.length := by
  fun_induction skipBlanks inComment s with
  | case1 => simp
  | case2 c cs ih => simp only [List.length_cons]; omega
  | case3 c cs _ ih => simp only [List.length_cons]; omega
  | case4 cs _ ih => simp only [List.length_cons]; omega
  | case5 => simp

theorem length_skipSpacing_le (spaced : Bool) (s : List Char) :
    (skipSpacing spaced s).length ≤ s.length := by
  unfold skipSpacing
  split
  · exact length_skipBlanks_le false s
  · exact Nat.le_refl _

/-- The character that is looked for behind a hyphen. In a spaced pattern blanks are passed over,
and one number sign among them, but not the comment that it opens. -/
def peek? (spaced : Bool) (s : List Char) : Option Char :=
  if spaced then
    match s.dropWhile isBlank with
    | '#' :: rest => (rest.dropWhile isBlank).head?
    | rest => rest.head?
  else s.head?

end Pattern

end IoWatch
