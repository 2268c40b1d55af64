import IoWatch.Amount
import IoWatch.Dashboard.Graph
import IoWatch.Dashboard.State

/-!
# Frames of the dashboard

A frame has three parts: a box with the graphs of the two histories and the current figures, a
table of rates, and a status line. The box is sixteen rows high and the status line one; the table
takes what is left. On a low screen the table keeps its least height, at the cost of the box and
then of the status line. Inside of the box the graphs take three quarters of the width, reading
above writing.

## Main definitions

* `Layout.quarters`, `Layout.column`: how widths are shared out
* `Layout.Heights`, `Layout.heights`: how the height is shared out
* `Dashboard.frame`: the frame of a dashboard on a screen
-/

namespace IoWatch

namespace Layout

/-- Three quarters of a width, a half counted up. -/
def quarters (width : Nat) : Nat := (3 * width + 2) / 4

/-- A quotient rounded to the nearest integer, a half counted up. -/
def nearest (num den : Nat) : Nat := (2 * num + den) / (2 * den)

/-- Where a column begins and how wide it is, of `count` equal columns with a gap of one between
them. -/
def column (width count index : Nat) : Nat × Nat :=
  let start := nearest (index * (width + 1)) count
  let stop := nearest (index * (width + 1) + (width + 1 - count)) count
  (start, stop - start)

/-- The heights of the three parts of a frame. -/
structure Heights where
  box : Nat
  table : Nat
  status : Nat
  deriving DecidableEq, Repr

/-- The height of the box of graphs, where there is room for it. -/
def boxHeight : Nat := 16

/-- The least height of the table. -/
def tableHeight : Nat := 6

/-- The heights on a screen. The table gets its least height first. The status line is shown if the
box is left at least as high as that, and the box gets the rest up to its own height. -/
def heights (height : Nat) : Heights :=
  let status := if 2 * tableHeight < height then 1 else 0
  let box := min (height - tableHeight - status) boxHeight
  ⟨box, height - box - status, status⟩

/-- The three parts fill the screen. -/
theorem heights_total (height : Nat) :
    (heights height).box + (heights height).table + (heights height).status = height := by
  simp only [heights]
  split <;> omega

end Layout

/-- A number of two digits. -/
def twoDigitText (n : Nat) : List Char := padded 2 (Nat.toDigits 10 n)

/-- A time of day as hours, minutes and seconds. -/
def ClockTime.text (t : ClockTime) : List Char :=
  twoDigitText (t.seconds / 3600) ++ ':' :: (twoDigitText (t.seconds / 60 % 60) ++ ':' ::
    twoDigitText (t.seconds % 60))

namespace Dashboard

/-- Painting in one colour. -/
def colored (c : Color) : Style := ⟨some c, none, false⟩

/-- Painting in one colour, in bold. -/
def emphasized (c : Color) : Style := ⟨some c, none, true⟩

/-- Painting that changes nothing but characters. -/
def plain : Style := {}

/-- A screen after the part of one counter is drawn: its graph on the left, its figures on the
right. -/
def drawCounter (s : Screen) (left right : Area) (title label : String) (color : Color)
    (count : Nat) (history : List Binary64) (rate peak : Binary64) (total : Int64) : Screen :=
  let s := s.title left title.toList (colored color)
  let s := s.graph ⟨left.x, left.y + 1, left.width, left.height - 1⟩ count history color
  let s := s.fill right (colored color)
  let line (s : Screen) (dy : Nat) (parts : List (List Char × Style)) : Screen :=
    if dy < right.height then s.writeAll right.x (right.y + dy) right.width parts else s
  let s := line s 0 [(label.toList, plain), (rateText rate, emphasized .white)]
  let s := line s 1 [("  Peak: ".toList, colored .darkGray), (rateText peak, plain)]
  line s 2 [("  Tot:  ".toList, colored .darkGray), (totalText total, plain)]

/-- A screen after the box of graphs is drawn. Both graphs are spread over the length of the history
of reading. -/
def drawBox (s : Screen) (d : Dashboard) (a : Area) : Screen :=
  let s := s.frame a (colored .cyan)
  let title := " Process I/O [pid ".toList ++ Nat.toDigits 10 d.pid.toNat ++ "] ".toList
  let s := s.title a.between title plain
  let inner := a.inner
  let split := Layout.quarters inner.width
  let upper := Layout.nearest inner.height 2
  let leftArea (y height : Nat) : Area := ⟨inner.x, y, split, height⟩
  let rightArea (y height : Nat) : Area := ⟨inner.x + split, y, inner.width - split, height⟩
  let (readTotal, writeTotal) := d.totals
  let count := d.readHistory.length
  let s := drawCounter s (leftArea inner.y upper) (rightArea inner.y upper) " Read " "R " .red
    count d.readHistory d.recent.readKb d.readPeak.kb readTotal
  drawCounter s (leftArea (inner.y + upper) (inner.height - upper))
    (rightArea (inner.y + upper) (inner.height - upper)) " Write " "W " .blue
    count d.writeHistory d.recent.writeKb d.writePeak.kb writeTotal

/-- A screen after one row of the table is drawn, cell by cell. -/
def drawRow (s : Screen) (a : Area) (y : Nat) (cells : List (List Char × Style)) : Screen :=
  cells.zipIdx.foldl
    (fun s ((text, style), i) =>
      let (start, width) := Layout.column a.width cells.length i
      let s := s.fill ⟨a.x + start, y, width, 1⟩ style
      s.write (a.x + start) y width text plain) s

/-- The cells of a row of rates. -/
def rateRow (label : String) (r : Rates) : List (List Char × Style) :=
  [(label.toList, plain), (r.readKb.fixed 2, colored .red), (r.readMb.fixed 4, colored .red),
    (r.writeKb.fixed 2, colored .blue), (r.writeMb.fixed 4, colored .blue)]

/-- A screen after the table of rates is drawn. -/
def drawTable (s : Screen) (d : Dashboard) (a : Area) : Screen :=
  let s := s.frame a plain
  let s := s.title a.between " Throughput ".toList plain
  let inner := a.inner
  let header : List (List Char × Style) :=
    ["Window", "Read KB/s", "Read MB/s", "Write KB/s", "Write MB/s"].map fun t =>
      (t.toList, emphasized .yellow)
  let s :=
    if 0 < inner.height then
      drawRow (s.fill ⟨inner.x, inner.y, inner.width, 1⟩ ⟨none, some (.gray 40), false⟩)
        inner inner.y header
    else s
  let s :=
    if 1 < inner.height then drawRow s inner (inner.y + 1) (rateRow "Last sample" d.recent) else s
  if 2 < inner.height then drawRow s inner (inner.y + 2) (rateRow "Since start" d.lifetime) else s

/-- The parts of the status line. -/
def statusParts (d : Dashboard) : List (List Char × Style) :=
  let state : List Char × Style :=
    if d.hasSample then (" SAMPLING ".toList, ⟨some .black, some .white, true⟩)
    else (" WAITING ".toList, ⟨some .white, some .darkGray, true⟩)
  let clock (t : ClockTime) : List Char × Style :=
    ("(@".toList ++ t.text ++ [')'], colored .darkGray)
  [state,
    (" every ".toList ++ Nat.toDigits 10 d.intervalMs.toNat ++ " ms".toList, plain),
    (" | ".toList, plain), ("MAX R: ".toList, emphasized .red),
    (rateText d.readPeak.kb ++ [' '], plain), clock d.readPeak.seenAt,
    (" | ".toList, plain), ("MAX W: ".toList, emphasized .blue),
    (rateText d.writePeak.kb ++ [' '], plain), clock d.writePeak.seenAt,
    (" | Press 'q' to quit".toList, plain)]

/-- A screen after the status line is drawn. -/
def drawStatus (s : Screen) (d : Dashboard) (a : Area) : Screen :=
  if a.height = 0 then s
  else
    (s.fill a ⟨none, some (.gray 20), false⟩).writeAll a.x a.y a.width d.statusParts

/-- The frame of a dashboard on a screen of a size. -/
def frame (d : Dashboard) (width height : Nat) : Screen :=
  let h := Layout.heights height
  let s := Screen.blank width height
  let s := drawBox s d ⟨0, 0, width, h.box⟩
  let s := drawTable s d ⟨0, h.box, width, h.table⟩
  drawStatus s d ⟨0, h.box + h.table, width, h.status⟩

end Dashboard

end IoWatch
