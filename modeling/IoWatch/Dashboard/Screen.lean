/-!
# Screens

A screen is a grid of cells, each a character with its colours. Painting changes the cells of an
area; what lies outside of the screen is left out.

## Main definitions

* `Color`, `Style`: colours, and what painting changes of a cell
* `Cell`, `Screen`: cells, and grids of them
* `Area`: a rectangle of cells
* `Screen.fill`, `Screen.write`, `Screen.title`, `Screen.frame`: painting an area, a text, a border
* `Screen.rowTexts`, `Screen.rowStyles`: the rows as text, and as runs of equal style
-/

namespace IoWatch

/-- The colours in use. -/
inductive Color where
  /-- What the terminal has by itself. -/
  | reset
  | black
  | red
  | yellow
  | blue
  | cyan
  | darkGray
  | white
  /-- A gray of equal parts of red, green and blue. -/
  | gray (part : UInt8)
  deriving DecidableEq, Repr

/-- A hexadecimal digit. -/
def hexChar (n : Nat) : Char := if n < 10 then Char.ofNat (48 + n) else Char.ofNat (55 + n)

/-- The name of a colour. -/
def Color.name : Color → List Char
  | reset => "Reset".toList
  | black => "Black".toList
  | red => "Red".toList
  | yellow => "Yellow".toList
  | blue => "Blue".toList
  | cyan => "Cyan".toList
  | darkGray => "DarkGray".toList
  | white => "White".toList
  | gray part =>
    let digits := [hexChar (part.toNat / 16), hexChar (part.toNat % 16)]
    '#' :: (digits ++ digits ++ digits)

/-- What painting changes of a cell; a missing part stays as it is. -/
structure Style where
  foreground : Option Color := none
  background : Option Color := none
  bold : Bool := false
  deriving DecidableEq, Repr

/-- A character with its colours. -/
structure Cell where
  char : Char
  foreground : Color
  background : Color
  bold : Bool
  deriving DecidableEq, Repr

namespace Cell

/-- A blank cell in the terminal's colours. -/
def blank : Cell := ⟨' ', .reset, .reset, false⟩

/-- A cell with a style laid over it. -/
def styled (c : Cell) (s : Style) : Cell :=
  { c with
    foreground := s.foreground.getD c.foreground
    background := s.background.getD c.background
    bold := c.bold || s.bold }

/-- Whether two cells differ in their characters only. -/
def sameStyle (a b : Cell) : Bool :=
  a.foreground = b.foreground && a.background = b.background && a.bold = b.bold

end Cell

/-- A rectangle of cells. -/
structure Area where
  x : Nat
  y : Nat
  width : Nat
  height : Nat
  deriving DecidableEq, Repr

/-- The rectangle inside a border. -/
def Area.inner (a : Area) : Area := ⟨a.x + 1, a.y + 1, a.width - 2, a.height - 2⟩

/-- The columns between the left and the right border, over the whole height. -/
def Area.between (a : Area) : Area := ⟨a.x + 1, a.y, a.width - 2, a.height⟩

/-- A grid of cells, row by row. -/
structure Screen where
  width : Nat
  height : Nat
  /-- The cells, row by row. -/
  cells : Array Cell
  deriving DecidableEq

namespace Screen

/-- A blank screen. -/
def blank (width height : Nat) : Screen := ⟨width, height, Array.replicate (width * height) .blank⟩

/-- A screen after a change of one cell. -/
def change (s : Screen) (x y : Nat) (f : Cell → Cell) : Screen :=
  if x < s.width ∧ y < s.height then
    { s with cells := s.cells.modify (y * s.width + x) f }
  else s

/-- A screen after a style is laid over an area. -/
def fill (s : Screen) (a : Area) (style : Style) : Screen :=
  (List.range a.height).foldl
    (fun s dy => (List.range a.width).foldl
      (fun s dx => s.change (a.x + dx) (a.y + dy) (·.styled style)) s) s

/-- A screen after a character is written into a cell. -/
def put (s : Screen) (x y : Nat) (c : Char) (style : Style) : Screen :=
  s.change x y fun cell => ({ cell with char := c }).styled style

/-- A screen after a text is written along a row, cut at a width. -/
def write (s : Screen) (x y width : Nat) (text : List Char) (style : Style) : Screen :=
  ((text.take width).zipIdx).foldl (fun s (c, dx) => s.put (x + dx) y c style) s

/-- A screen after a title is written into the first row of an area, if it has one. -/
def title (s : Screen) (a : Area) (text : List Char) (style : Style) : Screen :=
  if a.height = 0 then s else s.write a.x a.y a.width text style

/-- A screen after texts are written behind each other along a row, cut at a width. -/
def writeAll (s : Screen) (x y width : Nat) : List (List Char × Style) → Screen
  | [] => s
  | (text, style) :: rest =>
    (s.write x y width text style).writeAll (x + text.length) y (width - text.length) rest

/-- A screen after a rounded border is drawn around an area. Where corners meet, the left one covers
the right one and the upper one the lower one. -/
def frame (s : Screen) (a : Area) (style : Style) : Screen :=
  if a.width = 0 ∨ a.height = 0 then s
  else
    let right := a.x + a.width - 1
    let bottom := a.y + a.height - 1
    let s := (List.range a.width).foldl
      (fun s dx => (s.put (a.x + dx) a.y '─' style).put (a.x + dx) bottom '─' style) s
    let s := (List.range a.height).foldl
      (fun s dy => (s.put a.x (a.y + dy) '│' style).put right (a.y + dy) '│' style) s
    (((s.put right bottom '╯' style).put right a.y '╮' style).put a.x bottom '╰' style).put
      a.x a.y '╭' style

/-! ## Rows -/

/-- The cells of a row. -/
def row (s : Screen) (y : Nat) : List Cell :=
  (s.cells.extract (y * s.width) (y * s.width + s.width)).toList

/-- The text of a row, without the blanks at its end. -/
def rowText (s : Screen) (y : Nat) : List Char :=
  (((s.row y).map (·.char)).reverse.dropWhile (· = ' ')).reverse

/-- The texts of the rows. -/
def rowTexts (s : Screen) : List (List Char) := (List.range s.height).map s.rowText

/-- The runs of cells of equal style, each with its length. -/
def runs : List Cell → List (Nat × Cell)
  | [] => []
  | c :: cs =>
    match runs cs with
    | [] => [(1, c)]
    | (n, d) :: rest => if c.sameStyle d then (n + 1, c) :: rest else (1, c) :: (n, d) :: rest

/-- The text of a run: its length, the two colours, and whether it is bold. -/
def runText (n : Nat) (c : Cell) : List Char :=
  Nat.toDigits 10 n ++ ':' :: (c.foreground.name ++ '/' :: (c.background.name ++ '/' ::
    (if c.bold then "BOLD".toList else "NONE".toList)))

/-- The styles of the rows, as runs. -/
def rowStyles (s : Screen) : List (List (List Char)) :=
  (List.range s.height).map fun y => (runs (s.row y)).map fun (n, c) => runText n c

end Screen

end IoWatch
