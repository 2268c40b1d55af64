import IoWatch.Decimal.Shortest
import IoWatch.Text.Integer

/-!
# JSON values without text

The part of JSON that a snapshot needs: integers, binary64 numbers and objects. A value is written
without blanks, the members of an object in their order. A number has the fewest digits that read
back and always shows a point or an exponent; what is no finite number is written `null`.

## Main definitions

* `Json`, `Json.render`: the values and their text
* `Json.numberLayout`: how a number is laid out
-/

namespace IoWatch

/-- A JSON value made of numbers and objects. -/
inductive Json where
  | int (i : Int)
  | number (x : Binary64)
  /-- An object, its members in order. -/
  | object (members : List (String × Json))

namespace Json

/-- Numbers from `1e-5` up to but not including `1e16` have no exponent, an exponent always has a
sign, and a whole number still shows a point. -/
def numberLayout : Decimal.Layout := ⟨-5, 16, ['+'], ['.', '0']⟩

/-- The text of a number; one that is not finite is `null`. -/
def numberText (x : Binary64) : List Char :=
  match x with
  | .finite .. => (if x.isNegative then ['-'] else []) ++ x.shortest.text numberLayout
  | _ => ['n', 'u', 'l', 'l']

/-- The text of a member's name and the colon behind it. -/
def nameText (name : String) : List Char := '"' :: (name.toList ++ ['"', ':'])

mutual

/-- The text of a value. -/
def render : Json → List Char
  | int i => integerText i
  | number x => numberText x
  | object [] => ['\x7b', '\x7d']
  | object ((name, value) :: members) =>
    '\x7b' :: (nameText name ++ render value ++ renderRest members)

/-- The text of the members behind the first one, and the end of their object. -/
def renderRest : List (String × Json) → List Char
  | [] => ['\x7d']
  | (name, value) :: members => ',' :: (nameText name ++ render value ++ renderRest members)

end

end Json

end IoWatch
