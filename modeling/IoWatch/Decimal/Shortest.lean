import IoWatch.Decimal.Nearest

/-!
# The shortest decimal that reads back

A finite positive binary64 number is the nearest one to every real of an interval around it. Among
the decimals of that interval the shortest are those with the fewest digits, and of these the one
nearest to the number is taken.

The search tries one digit, then two, and so on. On the grid of all decimals with a given last
place, a point of the interval can only exist if one of the two grid points next to the number is
in it, so two candidates decide each step; seventeen digits always suffice.

## Main definitions

* `Binary64.readsBack`: whether a decimal lies in the interval of a number
* `Binary64.shortest`: the shortest decimal of a number's magnitude
* `Decimal.Layout`, `Decimal.text`: where the point stands and when an exponent is written
-/

namespace IoWatch

namespace Decimal

/-- The decimal without the zeros at its end; one of no value is left alone. At most `fuel` zeros
are dropped. -/
def trimZeros : Nat → Decimal → Decimal
  | 0, d => d
  | fuel + 1, d =>
    if d.digits ≠ 0 ∧ d.digits % 10 = 0 then trimZeros fuel ⟨d.digits / 10, d.exponent + 1⟩ else d

end Decimal

namespace Binary64

/-- The magnitude of a number and of a decimal as integers over one denominator. -/
def commonScale (x : Binary64) (d : Decimal) : Nat × Nat :=
  (x.units * Nat.pow 10 (-d.exponent).toNat, d.digits * Nat.pow 10 d.exponent.toNat * unitsPerOne)

/-- Whether a decimal lies in the interval of reals that round to the magnitude of a number. The
gap below a power of two is half the gap above it; the two ends belong to the interval when the
significand is even. -/
def readsBack (x : Binary64) (d : Decimal) : Bool :=
  match x with
  | finite _ m e _ =>
    let (value, candidate) := commonScale x d
    let unit := Nat.pow 2 e * Nat.pow 10 (-d.exponent).toNat
    let above := 2 * unit
    let below := if m = Nat.pow 2 52 ∧ e ≠ 0 then unit else above
    if m % 2 = 0 then 4 * candidate ≤ 4 * value + above ∧ 4 * value ≤ 4 * candidate + below
    else 4 * candidate < 4 * value + above ∧ 4 * value < 4 * candidate + below
  | _ => false

/-- The largest power of ten that is not above a positive magnitude. Scaling by `10 ^ 400` first
makes every positive magnitude at least one. -/
def decade (x : Binary64) : Int :=
  ((Nat.toDigits 10 (x.units * Nat.pow 10 400 / unitsPerOne)).length : Int) - 401

/-- The decimal just below or at a magnitude whose last place counts `10 ^ exponent`. -/
def floorAt (x : Binary64) (exponent : Int) : Decimal :=
  ⟨x.units * Nat.pow 10 (-exponent).toNat / (Nat.pow 10 exponent.toNat * unitsPerOne), exponent⟩

/-- Of the two decimals around a magnitude on one grid, the one that reads back; if both do, the
nearer one, and of two equally near ones the even one. -/
def nearestAt (x : Binary64) (exponent : Int) : Option Decimal :=
  let low := x.floorAt exponent
  let high : Decimal := ⟨low.digits + 1, exponent⟩
  match x.readsBack low, x.readsBack high with
  | false, false => none
  | true, false => some low
  | false, true => some high
  | true, true =>
    let (value, lowValue) := x.commonScale low
    let (_, highValue) := x.commonScale high
    let toLow := value - lowValue
    let toHigh := highValue - value
    if toLow < toHigh then some low
    else if toHigh < toLow then some high
    else if low.digits % 2 = 0 then some low else some high

/-- The first grid, from `digits` digits on, that has a decimal that reads back. -/
def searchShortest (x : Binary64) (decade : Int) : (fuel digits : Nat) → Decimal
  | 0, digits => x.floorAt (decade + 1 - digits)
  | fuel + 1, digits =>
    (x.nearestAt (decade + 1 - digits)).getD (searchShortest x decade fuel (digits + 1))

/-- The shortest decimal that reads back as the magnitude of a number. -/
def shortest (x : Binary64) : Decimal :=
  if x.units = 0 then ⟨0, 0⟩
  else (x.searchShortest x.decade 17 1).trimZeros 20

end Binary64

/-- Where a decimal has its point, and when it is written with an exponent instead. -/
structure Decimal.Layout where
  /-- The least power of ten of a first digit that is written without an exponent. -/
  leastPlain : Int
  /-- The least power of ten of a first digit that is written with an exponent again. -/
  firstLarge : Int
  /-- What stands in front of an exponent that is not negative. -/
  exponentPlus : List Char
  /-- What stands behind a whole number without an exponent. -/
  wholeMark : List Char

/-- The text of a decimal. Without an exponent there is at least one digit in front of the point;
with one, the point stands behind the first digit if there are more. -/
def Decimal.text (layout : Decimal.Layout) (d : Decimal) : List Char :=
  let digits := Nat.toDigits 10 d.digits
  let leading := d.magnitude - 1
  if d.digits = 0 then '0' :: layout.wholeMark
  else if leading < layout.leastPlain ∨ layout.firstLarge ≤ leading then
    digits.take 1 ++ (if digits.length = 1 then [] else '.' :: digits.drop 1) ++ 'e' ::
      ((if leading < 0 then ['-'] else layout.exponentPlus) ++ Nat.toDigits 10 leading.natAbs)
  else if 0 ≤ d.exponent then
    digits ++ List.replicate d.exponent.toNat '0' ++ layout.wholeMark
  else if 0 ≤ leading then
    digits.take (leading + 1).toNat ++ '.' :: digits.drop (leading + 1).toNat
  else
    '0' :: '.' :: (List.replicate (-leading - 1).toNat '0' ++ digits)

end IoWatch
