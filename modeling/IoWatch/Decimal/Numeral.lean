import IoWatch.Decimal.Shortest
import IoWatch.Text.Integer

/-!
# Numerals

A numeral is an optional sign, digits with at most one point among or beside them, and an optional
exponent. The names of infinity and of no number, in any case, are numerals too.

## Main definitions

* `numeral?`: the sign and the decimal that a numeral denotes
* `binary64?`: the number nearest to a numeral
* `Binary64.plainText`: the shortest numeral of a number that has no exponent
-/

namespace IoWatch

/-- The exponent at the end of a numeral: nothing, or a letter, an optional sign and digits. -/
def exponent? : List Char → Option Int
  | [] => some 0
  | c :: rest =>
    if c = 'e' ∨ c = 'E' then
      let (negative, ds) := signSplit rest
      (digits? ds).map (signed negative)
    else none

/-- The sign and the decimal that a numeral of digits denotes. -/
def numeral? (cs : List Char) : Option (Bool × Decimal) :=
  let (negative, rest) := signSplit cs
  let whole := rest.takeWhile Char.isDigit
  let (fraction, rest) :=
    match rest.dropWhile Char.isDigit with
    | '.' :: behind => (behind.takeWhile Char.isDigit, behind.dropWhile Char.isDigit)
    | rest => ([], rest)
  match digits? (whole ++ fraction), exponent? rest with
  | some n, some e => some (negative, ⟨n, e - fraction.length⟩)
  | _, _ => none

/-- The number that a name denotes. -/
def namedNumber? (negative : Bool) (name : List Char) : Option Binary64 :=
  if name = ['n', 'a', 'n'] then some .nan
  else if name = ['i', 'n', 'f'] ∨ name = "infinity".toList then some (.infinity negative)
  else none

/-- The number nearest to a numeral. -/
def binary64? (cs : List Char) : Option Binary64 :=
  match numeral? cs with
  | some (negative, d) => some (d.toBinary64 negative)
  | none =>
    let (negative, name) := signSplit cs
    namedNumber? negative (name.map Char.toLower)

/-- No exponent is ever written, and a whole number has no point. -/
def Decimal.plainLayout : Decimal.Layout := ⟨-400, 400, [], []⟩

/-- The shortest numeral of a number that has no exponent, or the name of a number that has none. -/
def Binary64.plainText (x : Binary64) : List Char :=
  match x with
  | nan => ['N', 'a', 'N']
  | infinity s => (if s then ['-'] else []) ++ ['i', 'n', 'f']
  | finite .. => (if x.isNegative then ['-'] else []) ++ x.shortest.text Decimal.plainLayout

end IoWatch
