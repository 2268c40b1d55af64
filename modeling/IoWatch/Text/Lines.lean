/-!
# Lines

A text is cut at its line feeds. A carriage return just before a line feed belongs to the line end;
any other one is part of its line. What follows the last line feed is a line unless it is empty.

## Main definitions

* `lines cs`: the lines of a text
* `splitAtFirst c cs`: what stands before and behind the first `c`
-/

namespace IoWatch

/-- The lines of a text, without their ends. -/
def lines : List Char → List (List Char)
  | [] => []
  | '\n' :: cs => [] :: lines cs
  | '\r' :: '\n' :: cs => [] :: lines cs
  | c :: cs =>
    match lines cs with
    | [] => [[c]]
    | line :: rest => (c :: line) :: rest

/-- What stands before and behind the first `c` of a text that has one. -/
def splitAtFirst (c : Char) (cs : List Char) : Option (List Char × List Char) :=
  match cs.dropWhile (· != c) with
  | [] => none
  | _ :: behind => some (cs.takeWhile (· != c), behind)

end IoWatch
