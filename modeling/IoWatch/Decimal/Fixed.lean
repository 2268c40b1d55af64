import IoWatch.Numeric.Binary64

/-!
# Decimals with a fixed number of places

Amounts are shown with a fixed number of digits after the point. The exact value of a binary64
number is rounded once, a half going to the even digit, and every digit before the point is
written, however many there are.

## Main definitions

* `padded width digits`: digits with zeros in front of them
* `pointed scaled places`: a natural number with its last digits behind a point
* `Binary64.fixed x places`: the text of a number with a fixed number of places
-/

namespace IoWatch

/-- At least `width` digits: zeros stand in front of the given ones. -/
def padded (width : Nat) (digits : List Char) : List Char :=
  List.replicate (width - digits.length) '0' ++ digits

/-- The decimal digits of `scaled`, the last `places` of them behind a point. -/
def pointed (scaled places : Nat) : List Char :=
  Nat.toDigits 10 (scaled / Nat.pow 10 places) ++
    '.' :: padded places (Nat.toDigits 10 (scaled % Nat.pow 10 places))

namespace Binary64

/-- The magnitude of a finite number in units of `10 ^ (-places)`, rounded to nearest even. -/
def scaled (x : Binary64) (places : Nat) : Nat :=
  roundHalfEven (x.units * Nat.pow 10 places) unitsPerOne

/-- The text of a number with a fixed number of places. A negative number keeps its sign when all
of its digits are zero. -/
def fixed (x : Binary64) (places : Nat) : List Char :=
  match x with
  | nan => ['N', 'a', 'N']
  | infinity s => (if s then ['-'] else []) ++ ['i', 'n', 'f']
  | finite .. => (if x.isNegative then ['-'] else []) ++ pointed (x.scaled places) places

end Binary64

end IoWatch
