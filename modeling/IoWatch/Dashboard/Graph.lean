import IoWatch.Numeric.Binary64
import IoWatch.Dashboard.Screen

/-!
# Graphs

A graph is drawn in Braille characters, each of which is two dots wide and four dots high. Every
entry of a history is a vertical line from zero up to its value. Columns are spread evenly over the
width, and heights are measured against the largest value, or against one if all values are
smaller; zero is measured like every other value, so rounding may put it one row above the bottom.
A line is left out if one of its ends is outside of the graph.

## Main definitions

* `Graph.ceiling`: the value at the top
* `Graph.column`, `Graph.dotRow`: the dot column of an entry and the dot row of a value
* `Graph.line?`: the dot column and the top dot row of an entry's line, if it is drawn
* `Graph.Lines`, `Graph.lines`: the lines of a history, and the dots that they cover
* `Graph.brailleChar`: the character of a cell's dots
* `Screen.graph`: a screen after a graph is drawn
-/

namespace IoWatch

namespace Graph

/-- The value at the top of a graph: the largest one, and at least one. -/
def ceiling (history : List Binary64) : Binary64 := history.foldl Binary64.max 1

/-- The dot column of an entry among `count` ones, in a graph of `columns` dot columns. This is the
exact quotient of naturals. A canvas that multiplies and divides in binary64 and then truncates
finds the same column as long as `index * (columns - 1) + count` is below `2 ^ 53`: the product is
exact then, and the quotient is not rounded up to a whole number that it does not reach. -/
def column (columns count index : Nat) : Nat := index * (columns - 1) / count

/-- The dot row of a value, counted from the top, in a graph of `rows` dot rows. -/
def dotRow (rows : Nat) (top value : Binary64) : Nat :=
  ((top - value) * Binary64.ofInt (rows - 1) / top).truncate (Nat.pow 2 64 - 1)

/-- Whether a value lies below zero or above the top of a graph. -/
def isOutside (top value : Binary64) : Bool := value < 0 || top < value

/-- The dot column and the top dot row of an entry's line. It is drawn unless its value is outside
of the graph or the history has no length to spread over. -/
def line? (columns rows count : Nat) (top : Binary64) (index : Nat) (value : Binary64) :
    Option (Nat × Nat) :=
  if isOutside top value ∨ count < index ∨ count = 0 then none
  else some (column columns count index, dotRow rows top value)

/-- The dots that the lines of a graph cover. -/
structure Lines where
  /-- The top dot row of the highest line of each dot column that has one. -/
  tops : Array (Option Nat)
  /-- The dot row at which all lines end. -/
  bottom : Nat
  deriving DecidableEq

/-- The lines of a history. They all end in the row of zero, so the higher of two lines in one
column covers the other. -/
def lines (columns rows count : Nat) (history : List Binary64) : Lines :=
  let top := ceiling history
  let drawn := history.zipIdx.filterMap fun (v, i) => line? columns rows count top i v
  ⟨drawn.foldl
    (fun ts (x, y) => ts.modify x fun t => some (match t with | some z => min y z | none => y))
    (Array.replicate columns none), dotRow rows top 0⟩

/-- The value of a dot in the code of a Braille character, by its column and row in the cell. -/
def dotValue : Nat → Nat → Nat
  | 0, 0 => 0x01
  | 0, 1 => 0x02
  | 0, 2 => 0x04
  | 0, _ => 0x40
  | _, 0 => 0x08
  | _, 1 => 0x10
  | _, 2 => 0x20
  | _, _ => 0x80

/-- Whether the dot of a column and row is covered by a line. -/
def Lines.isDot (l : Lines) (x y : Nat) : Bool :=
  match l.tops[x]? with
  | some (some top) => top ≤ y && y ≤ l.bottom
  | _ => false

/-- The values of the dots of a cell. -/
def Lines.cellDots (l : Lines) (x y : Nat) : Nat :=
  ((List.range 2).flatMap fun dx => (List.range 4).map fun dy =>
    if l.isDot (2 * x + dx) (4 * y + dy) then dotValue dx dy else 0).foldl (· + ·) 0

/-- The Braille character of a cell's dots. -/
def brailleChar (dots : Nat) : Char := Char.ofNat (0x2800 + dots)

end Graph

namespace Screen

/-- A screen after the dots of a cell are drawn; a cell without dots is left as it is. -/
def putDots (s : Screen) (x y : Nat) (color : Color) : (dots : Nat) → Screen
  | 0 => s
  | dots => s.put x y (Graph.brailleChar dots) ⟨some color, none, false⟩

/-- A screen after the graph of a history is drawn into an area, spread over `count` entries. -/
def graph (s : Screen) (a : Area) (count : Nat) (history : List Binary64) (color : Color) :
    Screen :=
  let lines := Graph.lines (2 * a.width) (4 * a.height) count history
  (List.range a.height).foldl
    (fun s dy => (List.range a.width).foldl
      (fun s dx => s.putDots (a.x + dx) (a.y + dy) color (lines.cellDots dx dy)) s) s

end Screen

end IoWatch
