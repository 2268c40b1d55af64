import IoWatch.Decimal.Numeral
import IoWatch.Pattern.Support
import IoWatch.Text.Integer
import IoWatch.Text.Utf8

/-!
# Matches of fields

A directive may ask for a field, and for a value of it. The text of the value is a truth value or a
number if it can be read as one, and else it must be a pattern that is supported.

## Main definitions

* `ValueMatch`, `ValueMatch.ofBytes?`: what a value must be, and the reading of its text
* `FieldMatch`, `FieldMatch.ofBytes?`: a field with the value it must have, if any
* `FieldMatch.compare`: the order of matches
* `FieldMatch.text`: the text of a match
-/

namespace IoWatch

/-! ## Orders of things with parts -/

/-- The order of two things that may be missing; a missing one is the least. -/
def compareOption (cmp : α → α → Ordering) : Option α → Option α → Ordering
  | none, none => .eq
  | none, some _ => .lt
  | some _, none => .gt
  | some a, some b => cmp a b

/-- The order of two lists by their first difference; a list is above its beginnings. -/
def compareList (cmp : α → α → Ordering) : List α → List α → Ordering
  | [], [] => .eq
  | [], _ :: _ => .lt
  | _ :: _, [] => .gt
  | a :: as, b :: bs => (cmp a b).then (compareList cmp as bs)

/-- The order of two byte strings. -/
def compareBytes : List UInt8 → List UInt8 → Ordering := compareList compare

/-! ## Values -/

/-- What a value must be. -/
inductive ValueMatch where
  | boolean (b : Bool)
  | number (x : Binary64)
  | natural (n : Nat)
  /-- An integer that is written with a minus sign. -/
  | integer (i : Int)
  /-- Something that a pattern describes. -/
  | pattern (bytes : List UInt8)
  deriving DecidableEq

namespace ValueMatch

/-- The integer of at most 64 bits that a minus sign and digits denote. -/
def negative? : List Char → Option Int
  | '-' :: ds =>
    (digits? ds).bind fun n => if Int64.minValue.toInt ≤ -(n : Int) then some (-n) else none
  | _ => none

/-- What the text of a value asks for. -/
def ofText? (cs : List Char) : Option ValueMatch :=
  if cs = "true".toList then some (boolean true)
  else if cs = "false".toList then some (boolean false)
  else (natural? 64 cs).map natural <|> (negative? cs).map integer <|> (binary64? cs).map number

/-- What the bytes of a value ask for. -/
def ofBytes? (bytes : List UInt8) : Option ValueMatch :=
  (Utf8.decode bytes).bind fun cs =>
    match ofText? cs with
    | some v => some v
    | none => if Pattern.isSupported cs then some (pattern bytes) else none

/-- The text of a value. -/
def text : ValueMatch → List Char
  | boolean b => if b then "true".toList else "false".toList
  | number x => x.plainText
  | natural n => Nat.toDigits 10 n
  | integer i => integerText i
  | pattern bytes => Utf8.display bytes

/-- The place of a kind of value among the others. -/
def rank : ValueMatch → Nat
  | boolean _ => 0
  | number .nan => 2
  | number _ => 1
  | natural _ => 3
  | integer _ => 4
  | pattern _ => 5

/-- The order of two numbers; no number is equal to itself. -/
def compareNumbers (x y : Binary64) : Ordering :=
  if x < y then .lt else if y < x then .gt else .eq

/-- The order of two values: by kind, then within the kind. -/
def compare (a b : ValueMatch) : Ordering :=
  match a, b with
  | boolean x, boolean y => Ord.compare x.toNat y.toNat
  | number x, number y => (Ord.compare a.rank b.rank).then (compareNumbers x y)
  | natural x, natural y => Ord.compare x y
  | integer x, integer y => Ord.compare x y
  | pattern x, pattern y => compareBytes x y
  | _, _ => Ord.compare a.rank b.rank

end ValueMatch

/-! ## Fields -/

/-- A field that a directive asks for, and the value it must have, if any. -/
structure FieldMatch where
  name : List UInt8
  value : Option ValueMatch
  deriving DecidableEq

namespace FieldMatch

/-- A field of some bytes: its name, and its value up to a second equals sign. -/
def ofBytes? (bytes : List UInt8) : Option FieldMatch :=
  let isEquals : UInt8 → Bool := (· == 61)
  let name := bytes.takeWhile (!isEquals ·)
  match bytes.dropWhile (!isEquals ·) with
  | [] => some ⟨name, none⟩
  | _ :: rest =>
    (ValueMatch.ofBytes? (rest.takeWhile (!isEquals ·))).map fun value => ⟨name, some value⟩

/-- The text of a field. -/
def text (f : FieldMatch) : List Char :=
  Utf8.display f.name ++ (f.value.map fun v => '=' :: v.text).getD []

/-- The order of two fields: one with a value is above one without. -/
def compare (a b : FieldMatch) : Ordering :=
  (Ord.compare a.value.isSome.toNat b.value.isSome.toNat).then
    ((compareBytes a.name b.name).then (compareOption ValueMatch.compare a.value b.value))

end FieldMatch

end IoWatch
