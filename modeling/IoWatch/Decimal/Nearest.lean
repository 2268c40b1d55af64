import IoWatch.Numeric.Binary64

/-!
# The number nearest to a decimal

A decimal is a natural number times a power of ten. It is read as the binary64 number nearest to
it, whatever its exponent; a decimal beyond all finite numbers is read as infinity and one below
half the least positive number as zero.

## Main definitions

* `Decimal`: digits and the power of ten of the last one
* `Decimal.toBinary64`: the nearest number, with a sign
-/

namespace IoWatch

/-- The decimal `digits * 10 ^ exponent`. -/
structure Decimal where
  /-- The digits, as a number. -/
  digits : Nat
  /-- The power of ten that the last digit counts. -/
  exponent : Int
  deriving DecidableEq, Repr

namespace Decimal

/-- The number of digits in front of the point, negative if zeros stand behind the point first. The
decimal is below ten to this power and not below a tenth of that. -/
def magnitude (d : Decimal) : Int := (Nat.toDigits 10 d.digits).length + d.exponent

/-- The number nearest to a decimal, with a sign. What is below `10 ^ (-400)` or not below
`10 ^ 400` is decided without computing the power. -/
def toBinary64 (negative : Bool) (d : Decimal) : Binary64 :=
  if d.digits = 0 ∨ d.magnitude < -400 then .zero negative
  else if 400 < d.magnitude then .infinity negative
  else
    .round negative (d.digits * Nat.pow 10 d.exponent.toNat * Binary64.unitsPerOne)
      (Nat.pow 10 (-d.exponent).toNat)

end Decimal

end IoWatch
