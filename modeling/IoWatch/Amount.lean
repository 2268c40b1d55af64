import IoWatch.Decimal.Fixed
import IoWatch.Rate

/-!
# Amounts for display

Rates and byte totals are shown with two places in the largest binary unit that they fill. The
unit is chosen from the exact amount, before it is rounded.

## Main definitions

* `rateText kb`: a rate in kilobytes per second, in its unit
* `totalText bytes`: a number of bytes, in its unit
-/

namespace IoWatch

/-- Kilobytes in a gigabyte. -/
def kbPerGb : Binary64 := 1048576

/-- A rate in the largest unit that it fills, with two places. -/
def rateText (kb : Binary64) : List Char :=
  if kbPerGb ≤ kb then (kb / kbPerGb).fixed 2 ++ [' ', 'G', 'B', '/', 's']
  else if kbPerMb ≤ kb then (kb / kbPerMb).fixed 2 ++ [' ', 'M', 'B', '/', 's']
  else kb.fixed 2 ++ [' ', 'K', 'B', '/', 's']

/-- Bytes in a kibibyte. -/
def kibibyte : Int := 1024

/-- Bytes in a mebibyte. -/
def mebibyte : Int := 1024 * kibibyte

/-- Bytes in a gibibyte. -/
def gibibyte : Int := 1024 * mebibyte

/-- Bytes in a tebibyte. -/
def tebibyte : Int := 1024 * gibibyte

/-- A number of bytes as a multiple of a unit, with two places. -/
def inUnit (bytes unit : Int) : List Char :=
  (Binary64.ofInt bytes / Binary64.ofInt unit).fixed 2

/-- A number of bytes in the largest unit that it fills, with two places; below one kibibyte the
bytes themselves, where what is negative counts as none. -/
def totalText (bytes : Int64) : List Char :=
  let n := bytes.toInt
  if tebibyte ≤ n then inUnit n tebibyte ++ [' ', 'T', 'i', 'B']
  else if gibibyte ≤ n then inUnit n gibibyte ++ [' ', 'G', 'i', 'B']
  else if mebibyte ≤ n then inUnit n mebibyte ++ [' ', 'M', 'i', 'B']
  else if kibibyte ≤ n then inUnit n kibibyte ++ [' ', 'K', 'i', 'B']
  else Nat.toDigits 10 n.toNat ++ [' ', 'B']

end IoWatch
