import IoWatch.Numeric.Rounding

/-!
# Binary64 numbers

The numbers of IEEE 754 binary64, held exactly. A finite number is a sign and a magnitude
`significand * 2 ^ scale`, counted in units of `2 ^ (-1074)`, the least positive magnitude; the
pair is canonical, so that two finite numbers of one sign and one value are equal. Arithmetic
computes the exact quotient of natural numbers and rounds it once, to nearest with ties to even,
so what an operation returns is a fact about integers.

## Main definitions

* `Binary64`, `Canonical`: the numbers, and which pairs of significand and scale are written
* `Binary64.round`: the number nearest to an exact quotient
* `Binary64.ofInt`, `Binary64.sub`, `Binary64.mul`, `Binary64.div`: rounded arithmetic
* `Binary64.le`, `Binary64.lt`, `Binary64.max`: the order, in which nothing compares with `nan`
* `Binary64.ofBits`, `Binary64.toBits`: the interchange encoding
* `Binary64.truncate`: the integer part, as a natural number below a bound
-/

namespace IoWatch

/-- A significand of at most 53 bits, all 53 in use unless the scale is the least one. -/
def Binary64.Canonical (significand scale : Nat) : Prop :=
  significand < Nat.pow 2 53 ∧ scale ≤ 2045 ∧ (scale = 0 ∨ Nat.pow 2 52 ≤ significand)

instance (significand scale : Nat) : Decidable (Binary64.Canonical significand scale) :=
  inferInstanceAs (Decidable (_ ∧ _ ∧ _))

/-- A binary64 number: not a number, an infinity, or plus or minus `significand * 2 ^ scale` units
of `2 ^ (-1074)`. -/
inductive Binary64 where
  | nan
  | infinity (negative : Bool)
  /-- A finite number; zero has both signs. -/
  | finite (negative : Bool) (significand scale : Nat)
      (canonical : Binary64.Canonical significand scale)
  deriving DecidableEq

namespace Binary64

/-- How many units of `2 ^ (-1074)` make one. -/
def unitsPerOne : Nat := Nat.pow 2 1074

/-- Zero of a sign. -/
def zero (negative : Bool) : Binary64 := .finite negative 0 0 (by decide)

/-- The number written by a sign, a significand and a scale: a significand that has just outgrown
its 53 bits is halved into the next scale, and what is then too large is infinite. -/
def ofParts (negative : Bool) (significand scale : Nat) : Binary64 :=
  let (significand, scale) :=
    if significand = Nat.pow 2 53 then (Nat.pow 2 52, scale + 1) else (significand, scale)
  if h : Canonical significand scale then .finite negative significand scale h
  else .infinity negative

/-- The scale at which `num / den` units have 53 bits before the point, or the least scale. -/
def scaleOf (num den : Nat) : Nat := (num / den).log2 - 52

/-- The number nearest to `num / den` units; of two equally near ones, the one with the even
significand. -/
def round (negative : Bool) (num den : Nat) : Binary64 :=
  let scale := scaleOf num den
  ofParts negative (roundHalfEven num (den * Nat.pow 2 scale)) scale

/-- The number nearest to an integer. -/
def ofInt (i : Int) : Binary64 := round (i < 0) (i.natAbs * unitsPerOne) 1

instance (n : Nat) : OfNat Binary64 n := ⟨ofInt n⟩

instance : Inhabited Binary64 := ⟨0⟩

/-- The sign bit; `nan` has none. -/
def isNegative : Binary64 → Bool
  | nan => false
  | infinity s => s
  | finite s .. => s

/-- The magnitude of a finite number in units of `2 ^ (-1074)`; the others have none. -/
def units : Binary64 → Nat
  | finite _ m e _ => m * Nat.pow 2 e
  | _ => 0

/-- The value of a finite number in units of `2 ^ (-1074)`. -/
def signedUnits (x : Binary64) : Int := if x.isNegative then -(x.units : Int) else x.units

/-! ## Order -/

/-- The order of the numbers; the two zeros are equal, and `nan` compares with nothing. -/
def le : Binary64 → Binary64 → Bool
  | nan, _ => false
  | _, nan => false
  | infinity true, _ => true
  | _, infinity false => true
  | infinity false, _ => false
  | _, infinity true => false
  | x, y => x.signedUnits ≤ y.signedUnits

/-- Strictly below. -/
def lt (x y : Binary64) : Bool := le x y && !le y x

instance : LE Binary64 := ⟨fun x y => le x y = true⟩
instance : LT Binary64 := ⟨fun x y => lt x y = true⟩
instance (x y : Binary64) : Decidable (x ≤ y) := inferInstanceAs (Decidable (_ = true))
instance (x y : Binary64) : Decidable (x < y) := inferInstanceAs (Decidable (_ = true))

/-- The larger of two numbers; `nan` gives way to the other one. -/
def max (x y : Binary64) : Binary64 :=
  match x, y with
  | nan, _ => y
  | _, nan => x
  | _, _ => if x < y then y else x

/-! ## Arithmetic -/

/-- The difference of two finite numbers, rounded; an exact zero is positive, unless a positive
zero is taken from a negative one. -/
def subFinite (x y : Binary64) : Binary64 :=
  let d := x.signedUnits - y.signedUnits
  if d = 0 then zero (x.units = 0 && x.isNegative && !y.isNegative)
  else round (d < 0) d.natAbs 1

/-- The difference, rounded. -/
def sub : Binary64 → Binary64 → Binary64
  | nan, _ => nan
  | _, nan => nan
  | infinity s, infinity t => if s = t then nan else infinity s
  | infinity s, _ => infinity s
  | _, infinity t => infinity (!t)
  | x, y => subFinite x y

/-- The product, rounded. -/
def mul : Binary64 → Binary64 → Binary64
  | nan, _ => nan
  | _, nan => nan
  | infinity s, infinity t => infinity (s != t)
  | infinity s, y => if y.units = 0 then nan else infinity (s != y.isNegative)
  | x, infinity t => if x.units = 0 then nan else infinity (x.isNegative != t)
  | x, y => round (x.isNegative != y.isNegative) (x.units * y.units) unitsPerOne

/-- The quotient, rounded. -/
def div : Binary64 → Binary64 → Binary64
  | nan, _ => nan
  | _, nan => nan
  | infinity _, infinity _ => nan
  | infinity s, y => infinity (s != y.isNegative)
  | x, infinity t => zero (x.isNegative != t)
  | x, y =>
    if y.units = 0 then if x.units = 0 then nan else infinity (x.isNegative != y.isNegative)
    else round (x.isNegative != y.isNegative) (x.units * unitsPerOne) y.units

instance : Sub Binary64 := ⟨sub⟩
instance : Mul Binary64 := ⟨mul⟩
instance : Div Binary64 := ⟨div⟩

/-- The integer part of a number, cut to the range from zero to `bound`; `nan` counts as zero. -/
def truncate (x : Binary64) (bound : Nat) : Nat :=
  match x with
  | nan => 0
  | infinity s => if s then 0 else bound
  | finite s m e _ => if s then 0 else min bound (m * Nat.pow 2 e / unitsPerOne)

/-! ## Interchange encoding -/

/-- The number that 64 bits encode: a sign bit, eleven exponent bits, 52 fraction bits. -/
def ofBits (bits : UInt64) : Binary64 :=
  let negative := Nat.pow 2 63 ≤ bits.toNat
  let magnitude := bits.toNat % Nat.pow 2 63
  let exponent := magnitude / Nat.pow 2 52
  let fraction := magnitude % Nat.pow 2 52
  if exponent = 2047 then if fraction = 0 then .infinity negative else .nan
  else if exponent = 0 then ofParts negative fraction 0
  else ofParts negative (fraction + Nat.pow 2 52) (exponent - 1)

/-- The 64 bits that encode a number. The exponent field of a canonical pair is one more than its
scale exactly when its significand has 53 bits, so the two parts simply add up. -/
def toBits : Binary64 → UInt64
  | nan => 0x7ff8000000000000
  | infinity s => (if s then 0x8000000000000000 else 0) + 0x7ff0000000000000
  | finite s m e _ => (if s then 0x8000000000000000 else 0) + (e * Nat.pow 2 52 + m).toUInt64

end Binary64

end IoWatch
