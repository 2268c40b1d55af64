import IoWatch.Decimal.Nearest
import IoWatch.Text.Integer
import IoWatch.Toml.Layout

/-!
# TOML numbers, dates and times

Integers fit into 64 bits with a sign; digits may be grouped by underscores, and only the forms by
base have leading zeros. A floating-point number has a fraction or an exponent; one that rounds to
positive infinity is refused. Dates are checked against the calendar and times against the clock,
where a minute may have a leap second.

## Main definitions

* `Toml.integer`, `Toml.float`, `Toml.dateTime`: the three kinds of values that start like a number
-/

namespace IoWatch

namespace Toml

/-- Whether digits are grouped well: an underscore stands between two digits. -/
def wellGrouped (isDigit : Char → Bool) : (behindDigit : Bool) → List Char → Bool
  | behindDigit, [] => behindDigit
  | behindDigit, c :: rest =>
    if c = '_' then behindDigit && wellGrouped isDigit false rest
    else isDigit c && wellGrouped isDigit true rest

/-- One or more digits, without the underscores between them. -/
def digits (isDigit : Char → Bool) (cs : List Char) : Option (List Char × List Char) :=
  let run := cs.takeWhile fun c => isDigit c || c = '_'
  if wellGrouped isDigit false run then
    some (run.filter (· != '_'), cs.dropWhile fun c => isDigit c || c = '_')
  else none

/-- Decimal digits without a leading zero. -/
def wholeDigits (cs : List Char) : Option (List Char × List Char) := do
  let (ds, rest) ← digits Char.isDigit cs
  if ds.head? = some '0' ∧ ds.length ≠ 1 then none else some (ds, rest)

/-- The value of a digit of any base up to sixteen. -/
def digitValue (c : Char) : Nat :=
  if c.isDigit then c.toNat - '0'.toNat else c.toLower.toNat - 'a'.toNat + 10

/-- The number that digits of a base denote. -/
def valueOf (base : Nat) (ds : List Char) : Nat :=
  ds.foldl (fun n c => n * base + digitValue c) 0

/-- An integer if it fits into 64 bits with a sign. -/
def word? (i : Int) : Option Int :=
  if Int64.minValue.toInt ≤ i ∧ i ≤ Int64.maxValue.toInt then some i else none

/-- A hexadecimal digit. -/
def isHexDigit (c : Char) : Bool := c.isDigit || ('a' ≤ c && c ≤ 'f') || ('A' ≤ c && c ≤ 'F')

/-- An integer in some base, behind the letter of the base. -/
def based (base : Nat) (isDigit : Char → Bool) (cs : List Char) : Option (Int × List Char) := do
  let (ds, rest) ← digits isDigit cs
  let i ← word? (valueOf base ds)
  return (i, rest)

/-- An integer. -/
def integer : Scan Int
  | '0' :: 'x' :: rest => based 16 isHexDigit rest
  | '0' :: 'o' :: rest => based 8 (fun c => '0' ≤ c && c ≤ '7') rest
  | '0' :: 'b' :: rest => based 2 (fun c => c = '0' || c = '1') rest
  | cs => do
    let (negative, rest) := signSplit cs
    let (ds, rest) ← wholeDigits rest
    let i ← word? (signed negative (valueOf 10 ds))
    return (i, rest)

/-- The fraction of a number, behind its point if it has one. -/
def fraction : List Char → Option (Option (List Char) × List Char)
  | '.' :: rest => do
    let (ds, rest) ← digits Char.isDigit rest
    return (some ds, rest)
  | rest => some (none, rest)

/-- The exponent of a number, behind its letter if it has one. -/
def exponent (cs : List Char) : Option (Option Int × List Char) :=
  match cs with
  | c :: rest =>
    if c = 'e' ∨ c = 'E' then do
      let (negative, rest) := signSplit rest
      let (ds, rest) ← digits Char.isDigit rest
      return (some (signed negative (valueOf 10 ds)), rest)
    else some (none, cs)
  | [] => some (none, [])

/-- A floating-point number that is written with digits. -/
def writtenFloat (cs : List Char) : Option (Unit × List Char) := do
  let (negative, rest) := signSplit cs
  let (whole, rest) ← wholeDigits rest
  let (frac, rest) ← fraction rest
  let (exp, rest) ← exponent rest
  if frac = none ∧ exp = none then none
  else
    let frac := frac.getD []
    let d : Decimal := ⟨valueOf 10 (whole ++ frac), exp.getD 0 - frac.length⟩
    if d.toBinary64 negative = .infinity false then none else some ((), rest)

/-- Infinity or not a number, by name. -/
def namedFloat (cs : List Char) : Option (Unit × List Char) :=
  match (signSplit cs).2 with
  | 'i' :: 'n' :: 'f' :: rest => some ((), rest)
  | 'n' :: 'a' :: 'n' :: rest => some ((), rest)
  | _ => none

/-- A floating-point number. -/
def float (cs : List Char) : Option (Unit × List Char) := writtenFloat cs <|> namedFloat cs

/-! ## Dates and times -/

/-- A number of exactly so many decimal digits. -/
def fixedDigits (count : Nat) (cs : List Char) : Option (Nat × List Char) :=
  let ds := cs.take count
  if ds.length = count ∧ ds.all Char.isDigit then some (valueOf 10 ds, cs.drop count) else none

/-- A number of two decimal digits within a range. -/
def twoDigits (low high : Nat) (cs : List Char) : Option (Nat × List Char) := do
  let (n, rest) ← fixedDigits 2 cs
  if low ≤ n ∧ n ≤ high then some (n, rest) else none

/-- What follows a character. -/
def behind (c : Char) : List Char → Option (List Char)
  | d :: rest => if d = c then some rest else none
  | [] => none

/-- Whether a year has a day more. -/
def isLeap (year : Nat) : Bool := year % 4 = 0 && (year % 100 ≠ 0 || year % 400 = 0)

/-- The number of days of a month. -/
def daysIn (year month : Nat) : Nat :=
  if month = 2 then if isLeap year then 29 else 28
  else if month = 4 ∨ month = 6 ∨ month = 9 ∨ month = 11 then 30
  else 31

/-- What follows a date. -/
def date (cs : List Char) : Option (List Char) := do
  let (year, rest) ← fixedDigits 4 cs
  let rest ← behind '-' rest
  let (month, rest) ← twoDigits 1 12 rest
  let rest ← behind '-' rest
  let (_, rest) ← twoDigits 1 (daysIn year month) rest
  return rest

/-- What follows the fraction of a second, if there is one. -/
def secondFraction : List Char → List Char
  | '.' :: c :: rest => if c.isDigit then rest.dropWhile Char.isDigit else '.' :: c :: rest
  | rest => rest

/-- What follows a time of day. -/
def time (cs : List Char) : Option (List Char) := do
  let (_, rest) ← twoDigits 0 23 cs
  let rest ← behind ':' rest
  let (_, rest) ← twoDigits 0 59 rest
  let rest ← behind ':' rest
  let (_, rest) ← twoDigits 0 60 rest
  return secondFraction rest

/-- What follows the offset of a time from universal time, if there is one. -/
def offset (cs : List Char) : Option (List Char) :=
  match cs with
  | 'Z' :: rest | 'z' :: rest => some rest
  | '+' :: rest | '-' :: rest => do
    let (_, rest) ← twoDigits 0 23 rest
    let rest ← behind ':' rest
    let (_, rest) ← twoDigits 0 59 rest
    return rest
  | rest => some rest

/-- What follows the time of day behind a date, if there is one. -/
def timeBehindDate (cs : List Char) : Option (List Char) :=
  match cs with
  | c :: rest =>
    if c = 'T' ∨ c = 't' ∨ c = ' ' then do
      let rest ← time rest
      offset rest
    else none
  | [] => none

/-- A date, a time of day, or both. -/
def dateTime (cs : List Char) : Option (Unit × List Char) :=
  match date cs with
  | some rest => some ((), (timeBehindDate rest).getD rest)
  | none => (time cs).map ((), ·)

end Toml

end IoWatch
