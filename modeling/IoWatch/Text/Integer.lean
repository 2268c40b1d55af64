/-!
# Integers in text

## Main definitions

* `digits?`: the number that digits denote
* `natural? bits`: the number of at most `bits` bits that digits behind an optional plus sign denote
* `signSplit`: an optional sign and what stands behind it
* `integerText`: the text of an integer
-/

namespace IoWatch

/-- The number that one or more ASCII digits denote. -/
def digits? (cs : List Char) : Option Nat :=
  if cs ≠ [] ∧ cs.all Char.isDigit then some (Nat.ofDigitChars 10 cs 0) else none

/-- The text behind an optional plus sign. -/
def unsigned (cs : List Char) : List Char :=
  match cs with
  | '+' :: ds => ds
  | ds => ds

/-- The number below `2 ^ bits` that an optional plus sign and digits denote. -/
def natural? (bits : Nat) (cs : List Char) : Option Nat :=
  (digits? (unsigned cs)).filter (· < Nat.pow 2 bits)

/-- Whether there is a minus sign, and what stands behind an optional sign. -/
def signSplit : List Char → Bool × List Char
  | '-' :: rest => (true, rest)
  | '+' :: rest => (false, rest)
  | rest => (false, rest)

/-- An integer of a sign and a magnitude. -/
def signed (negative : Bool) (n : Nat) : Int := if negative then -n else n

/-- The decimal text of an integer. -/
def integerText (i : Int) : List Char :=
  (if i < 0 then ['-'] else []) ++ Nat.toDigits 10 i.natAbs

end IoWatch
