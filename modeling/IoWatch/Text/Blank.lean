/-!
# Blank characters

The characters with the Unicode property White_Space, and the removal of such characters from the
two ends of a text.

## Main definitions

* `isBlank c`: whether a character has the property
* `trimmed cs`: a text without the blank characters at its ends

## Main results

* `isBlank_of_isWhitespace`: the four blank characters of plain ASCII text are among them
-/

namespace IoWatch

/-- The characters with the property White_Space: tab to carriage return, the space, next line, the
no-break space, and the typographic spaces and separators. -/
def isBlank (c : Char) : Bool :=
  let n := c.toNat
  (9 ≤ n && n ≤ 13) || n == 0x20 || n == 0x85 || n == 0xa0 || n == 0x1680 ||
    (0x2000 ≤ n && n ≤ 0x200a) || n == 0x2028 || n == 0x2029 || n == 0x202f || n == 0x205f ||
    n == 0x3000

/-- A space, a tab, a carriage return and a line feed are blank. -/
theorem isBlank_of_isWhitespace {c : Char} (h : c.isWhitespace = true) : isBlank c = true := by
  simp only [Char.isWhitespace, Bool.or_eq_true, decide_eq_true_eq] at h
  rcases h with ((h | h) | h) | h <;> subst h <;> decide

/-- A text without the blank characters at its two ends. -/
def trimmed (cs : List Char) : List Char :=
  ((cs.dropWhile isBlank).reverse.dropWhile isBlank).reverse

end IoWatch
