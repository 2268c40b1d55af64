import IoWatch.Dashboard.Frame
import IoWatch.Proofs.GraphLines
import IoWatch.Proofs.Painting
import IoWatch.Proofs.Watching

/-!
# Graphs on a frame

The parts of a frame are painted from the upper left to the lower right: the box before the table,
the table before the status line, reading before writing, and every graph before the figures on its
right. So nothing covers a graph.

## Main definitions

* `Layout.graphArea`, `Layout.graphOn`, `Side.graphColor`: where the graph of a counter is, and its
  colour
* `Dashboard.linesIn`, `Dashboard.linesOn`: the lines of that graph
* `Screen.ShowsDot`: a dot is shown in a colour

## Main results

* `Dashboard.paintsFrom_drawCounter`, `Dashboard.paintsFrom_drawTable`,
  `Dashboard.paintsFrom_drawStatus`: the parts of a frame
* `Dashboard.showsDots_frame`: a frame shows the dots of both graphs
* `Dashboard.showsDot_frame`: a frame shows every dot of both graphs
-/

namespace IoWatch

open Screen

/-- What is left of an area below a title. -/
def Area.belowTitle (a : Area) : Area := ⟨a.x, a.y + 1, a.width, a.height - 1⟩

namespace Layout

/-- The left part of a counter inside of a box. -/
def counterArea (box : Area) : Side → Area
  | .read => ⟨box.inner.x, box.inner.y, quarters box.inner.width, nearest box.inner.height 2⟩
  | .write => ⟨box.inner.x, box.inner.y + nearest box.inner.height 2, quarters box.inner.width,
      box.inner.height - nearest box.inner.height 2⟩

/-- The right part of a counter inside of a box. -/
def figuresArea (box : Area) (side : Side) : Area :=
  ⟨box.inner.x + quarters box.inner.width, (counterArea box side).y,
    box.inner.width - quarters box.inner.width, (counterArea box side).height⟩

/-- Where the graph of a counter is inside of a box. -/
def graphArea (box : Area) (side : Side) : Area := (counterArea box side).belowTitle

end Layout

/-- The colour of the graph of a side. -/
def Side.graphColor : Side → Color
  | .read => .red
  | .write => .blue

namespace Dashboard

variable {d : Dashboard} {s : Screen} {a : Area}

/-! ## Parts of a frame -/

section Counter

variable {left right : Area} {title label : String} {color : Color} {count : Nat}
  {history : List Binary64} {rate peak : Binary64} {total : Int64}

/-- Behind its title and its graph, the part of a counter is painted from its right side on. -/
theorem paintsFrom_figures : PaintsFrom right.x right.y
    ((s.title left title.toList (colored color)).graph left.belowTitle count history color)
    (drawCounter s left right title label color count history rate peak total) := by
  have hline : ∀ (s : Screen) (dy : Nat) (parts : List (List Char × Style)),
      PaintsFrom right.x right.y s
        (if dy < right.height then s.writeAll right.x (right.y + dy) right.width parts else s) := by
    intro s dy parts
    split
    · exact (paintsFrom_writeAll parts s _ _ _).mono (Nat.le_refl _) (Nat.le_add_right _ _)
    · exact .refl _ _ s
  rw [drawCounter]
  apply PaintsFrom.trans _ (hline _ 2 _)
  apply PaintsFrom.trans _ (hline _ 1 _)
  apply PaintsFrom.trans _ (hline _ 0 _)
  exact paintsFrom_fill _ right _

theorem paintsFrom_drawCounter (hx : left.x ≤ right.x) (hy : left.y ≤ right.y) :
    PaintsFrom left.x left.y s
      (drawCounter s left right title label color count history rate peak total) := by
  have htitle := paintsFrom_title s left title.toList (colored color)
  have hgraph := htitle.next (paintsFrom_graph _ left.belowTitle count history color)
    (Nat.le_refl _) (Nat.le_add_right _ _)
  exact hgraph.next paintsFrom_figures hx hy

/-- The part of a counter shows its graph. -/
theorem showsDots_drawCounter {dx dy : Nat} (hright : left.x + left.width ≤ right.x)
    (hcell : (s.cell? (left.belowTitle.x + dx) (left.belowTitle.y + dy)).isSome)
    (hdx : dx < left.belowTitle.width) (hdy : dy < left.belowTitle.height)
    (hdots : (left.belowTitle.lines count history).cellDots dx dy ≠ 0) :
    (drawCounter s left right title label color count history rate peak total).ShowsDots
      (left.belowTitle.x + dx) (left.belowTitle.y + dy) color
      ((left.belowTitle.lines count history).cellDots dx dy) := by
  have htitle := paintsFrom_title s left title.toList (colored color)
  rw [← htitle.isSome_cell?] at hcell
  have hgraph := showsDots_graph color hcell hdx hdy hdots
  have hout : left.belowTitle.x + dx < right.x :=
    Nat.lt_of_lt_of_le (Nat.add_lt_add_left hdx left.x) hright
  exact hgraph.of_paintsFrom paintsFrom_figures (.inl hout)

end Counter

/-- A box with its title. -/
def titledBox (s : Screen) (d : Dashboard) (a : Area) : Screen :=
  (s.frame a (colored .cyan)).title a.between
    (" Process I/O [pid ".toList ++ Nat.toDigits 10 d.pid.toNat ++ "] ".toList) plain

theorem paintsFrom_titledBox (s : Screen) (d : Dashboard) (a : Area) :
    PaintsFrom a.x a.y s (titledBox s d a) :=
  (paintsFrom_frame s a _).next (paintsFrom_title _ a.between _ plain) (Nat.le_add_right _ _)
    (Nat.le_refl _)

/-- A box with its title and the part of reading. -/
def readBox (s : Screen) (d : Dashboard) (a : Area) : Screen :=
  drawCounter (titledBox s d a) (Layout.counterArea a .read) (Layout.figuresArea a .read) " Read "
    "R " .red d.readHistory.length d.readHistory d.recent.readKb d.readPeak.kb d.totals.1

theorem paintsFrom_readBox (s : Screen) (d : Dashboard) (a : Area) :
    PaintsFrom a.x a.y s (readBox s d a) :=
  (paintsFrom_titledBox s d a).next
    (paintsFrom_drawCounter (Nat.le_add_right _ _) (Nat.le_refl _)) (Nat.le_add_right _ _)
    (Nat.le_add_right _ _)

/-- The part of writing comes last. -/
theorem drawBox_eq (s : Screen) (d : Dashboard) (a : Area) : drawBox s d a =
    drawCounter (readBox s d a) (Layout.counterArea a .write) (Layout.figuresArea a .write)
      " Write " "W " .blue d.readHistory.length d.writeHistory d.recent.writeKb d.writePeak.kb
      d.totals.2 :=
  rfl

theorem paintsFrom_drawBox (s : Screen) (d : Dashboard) (a : Area) :
    PaintsFrom (Layout.counterArea a .write).x (Layout.counterArea a .write).y (readBox s d a)
      (drawBox s d a) := by
  rw [drawBox_eq]
  exact paintsFrom_drawCounter (Nat.le_add_right _ _) (Nat.le_refl _)

/-- The lines of the graph of a counter inside of a box. Both graphs are spread over the length of
the history of reading. -/
def linesIn (d : Dashboard) (box : Area) (side : Side) : Graph.Lines :=
  (Layout.graphArea box side).lines d.readHistory.length (d.history side)

/-- The box shows both graphs: the part of writing begins below the graph of reading. -/
theorem showsDots_drawBox {side : Side} {dx dy : Nat}
    (hcell : (s.cell? ((Layout.graphArea a side).x + dx) ((Layout.graphArea a side).y + dy)).isSome)
    (hdx : dx < (Layout.graphArea a side).width) (hdy : dy < (Layout.graphArea a side).height)
    (hdots : (d.linesIn a side).cellDots dx dy ≠ 0) :
    (drawBox s d a).ShowsDots ((Layout.graphArea a side).x + dx)
      ((Layout.graphArea a side).y + dy) side.graphColor ((d.linesIn a side).cellDots dx dy) := by
  cases side with
  | read =>
    rw [← (paintsFrom_titledBox s d a).isSome_cell?] at hcell
    have hread : (readBox s d a).ShowsDots ((Layout.graphArea a .read).x + dx)
        ((Layout.graphArea a .read).y + dy) .red ((d.linesIn a .read).cellDots dx dy) := by
      rw [readBox]
      exact showsDots_drawCounter (Nat.le_refl _) hcell hdx hdy hdots
    apply hread.of_paintsFrom (paintsFrom_drawBox s d a)
    right
    simp only [Layout.graphArea, Area.belowTitle, Layout.counterArea] at hdy ⊢
    omega
  | write =>
    rw [← (paintsFrom_readBox s d a).isSome_cell?] at hcell
    rw [drawBox_eq]
    exact showsDots_drawCounter (Nat.le_refl _) hcell hdx hdy hdots

theorem paintsFrom_drawRow (cells : List (List Char × Style)) (s : Screen) (a : Area) (y : Nat) :
    PaintsFrom a.x y s (drawRow s a y cells) := by
  apply PaintsFrom.foldl
  rintro ⟨⟨text, style⟩, i⟩ s
  apply PaintsFrom.next _ (paintsFrom_write _ _ _ _ _ _) (Nat.le_add_right _ _) (Nat.le_refl _)
  exact (paintsFrom_fill s ⟨a.x + _, y, _, 1⟩ style).mono (Nat.le_add_right _ _) (Nat.le_refl _)

theorem paintsFrom_drawTable (s : Screen) (d : Dashboard) (a : Area) :
    PaintsFrom a.x a.y s (drawTable s d a) := by
  have hframe := paintsFrom_frame s a plain
  have htitle := hframe.next (paintsFrom_title _ a.between " Throughput ".toList plain)
    (Nat.le_add_right _ _) (Nat.le_refl _)
  have hrow : ∀ (s : Screen) (dy : Nat) (cells : List (List Char × Style)),
      PaintsFrom a.x a.y s (drawRow s a.inner (a.inner.y + dy) cells) := by
    intro s dy cells
    exact (paintsFrom_drawRow cells s a.inner (a.inner.y + dy)).mono (Nat.le_add_right _ _)
      (Nat.le_trans (Nat.le_add_right a.y 1) (Nat.le_add_right _ _))
  have hrows : ∀ {t : Screen} (dy : Nat) (cells : List (List Char × Style)),
      PaintsFrom a.x a.y s t → PaintsFrom a.x a.y s
        (if dy < a.inner.height then drawRow t a.inner (a.inner.y + dy) cells else t) := by
    intro t dy cells h
    split
    · exact h.trans (hrow t dy cells)
    · exact h
  rw [drawTable]
  apply hrows 2
  apply hrows 1
  split
  · have hfill := htitle.next
      (paintsFrom_fill _ ⟨a.inner.x, a.inner.y, a.inner.width, 1⟩ ⟨none, some (.gray 40), false⟩)
      (Nat.le_add_right _ _) (Nat.le_add_right _ _)
    exact hfill.trans (hrow _ 0 _)
  · exact htitle

theorem paintsFrom_drawStatus (s : Screen) (d : Dashboard) (a : Area) :
    PaintsFrom a.x a.y s (drawStatus s d a) := by
  rw [drawStatus]
  split
  · exact .refl _ _ s
  · exact (paintsFrom_fill s a _).trans (paintsFrom_writeAll _ _ _ _ _)

end Dashboard

/-! ## Frames -/

namespace Layout

/-- The box of graphs on a frame. -/
def boxOn (width height : Nat) : Area := ⟨0, 0, width, (heights height).box⟩

/-- Where the graph of a counter is on a frame. -/
def graphOn (width height : Nat) (side : Side) : Area := graphArea (boxOn width height) side

variable {width height dx dy : Nat} {side : Side}

theorem graphOn_read (width height : Nat) : graphOn width height .read =
    ⟨1, 2, quarters (width - 2), nearest ((heights height).box - 2) 2 - 1⟩ :=
  rfl

theorem graphOn_write (width height : Nat) : graphOn width height .write =
    ⟨1, 1 + nearest ((heights height).box - 2) 2 + 1, quarters (width - 2),
      (heights height).box - 2 - nearest ((heights height).box - 2) 2 - 1⟩ :=
  rfl

/-- A graph is at most six rows high. -/
theorem graphOn_height_le (width height : Nat) (side : Side) :
    (graphOn width height side).height ≤ 6 := by
  have hbox : (heights height).box ≤ 16 := Nat.min_le_right _ _
  cases side with
  | read =>
    simp only [graphOn_read, nearest]
    omega
  | write =>
    simp only [graphOn_write, nearest]
    omega

/-- It has all of them if there is room for the box beside the other two parts. -/
theorem graphOn_height (width : Nat) (side : Side) (h : 23 ≤ height) :
    (graphOn width height side).height = 6 := by
  have hbox : (heights height).box = 16 := by
    simp only [heights]
    split
    · simp only [boxHeight, tableHeight]
      omega
    next hlow =>
      simp only [tableHeight] at hlow
      omega
  cases side with
  | read => simp only [graphOn_read, hbox, nearest]
  | write => simp only [graphOn_write, hbox, nearest]

/-- A graph has a column if the box has one inside. -/
theorem graphOn_width_pos (height : Nat) (side : Side) (h : 3 ≤ width) :
    0 < (graphOn width height side).width := by
  cases side with
  | read =>
    simp only [graphOn_read, quarters]
    omega
  | write =>
    simp only [graphOn_write, quarters]
    omega

/-- The graphs are inside of the box. -/
theorem graphOn_lt (hdx : dx < (graphOn width height side).width)
    (hdy : dy < (graphOn width height side).height) :
    (graphOn width height side).x + dx < width ∧
      (graphOn width height side).y + dy < (heights height).box := by
  cases side with
  | read =>
    simp only [graphOn_read, quarters, nearest] at hdx hdy ⊢
    omega
  | write =>
    simp only [graphOn_write, quarters, nearest] at hdx hdy ⊢
    omega

end Layout

/-- A dot is shown in a colour. -/
def Screen.ShowsDot (s : Screen) (x y : Nat) (color : Color) : Prop :=
  ∃ c, s.cell? (x / 2) (y / 4) = some c ∧ c.foreground = color ∧
    Graph.hasDot (c.char.toNat - 0x2800) (x % 2) (y % 4)

namespace Dashboard

/-- The lines of the graph of a counter on a frame. -/
def linesOn (d : Dashboard) (width height : Nat) (side : Side) : Graph.Lines :=
  d.linesIn (Layout.boxOn width height) side

variable {width height x y dx dy : Nat} {side : Side}

/-- A frame shows the dots of both graphs. The table is below the box, and the status line below the
table. -/
theorem showsDots_frame (d : Dashboard) (hdx : dx < (Layout.graphOn width height side).width)
    (hdy : dy < (Layout.graphOn width height side).height)
    (hdots : (d.linesOn width height side).cellDots dx dy ≠ 0) :
    (d.frame width height).ShowsDots ((Layout.graphOn width height side).x + dx)
      ((Layout.graphOn width height side).y + dy) side.graphColor
      ((d.linesOn width height side).cellDots dx dy) := by
  obtain ⟨hx, hy⟩ := Layout.graphOn_lt hdx hdy
  have hheight : (Layout.graphOn width height side).y + dy < height := by
    have := Layout.heights_total height
    omega
  have hcell : ((blank width height).cell? ((Layout.graphOn width height side).x + dx)
      ((Layout.graphOn width height side).y + dy)).isSome := by
    rw [Option.isSome_iff_exists]
    exact (isWhole_blank width height).exists_cell? hx hheight
  have hbox := showsDots_drawBox hcell hdx hdy hdots
  have htable := hbox.of_paintsFrom
    (paintsFrom_drawTable _ d ⟨0, (Layout.heights height).box, width,
      (Layout.heights height).table⟩) (.inr hy)
  rw [frame]
  apply htable.of_paintsFrom (paintsFrom_drawStatus _ d _)
  exact .inr (Nat.lt_of_lt_of_le hy (Nat.le_add_right _ _))

/-- A frame shows every dot of both graphs. -/
theorem showsDot_frame (d : Dashboard) (hx : x < 2 * (Layout.graphOn width height side).width)
    (hy : y < 4 * (Layout.graphOn width height side).height)
    (hdot : (d.linesOn width height side).isDot x y) :
    (d.frame width height).ShowsDot (2 * (Layout.graphOn width height side).x + x)
      (4 * (Layout.graphOn width height side).y + y) side.graphColor := by
  rw [← Graph.hasDot_cellDots] at hdot
  have hdots : (d.linesOn width height side).cellDots (x / 2) (y / 4) ≠ 0 := by
    intro hzero
    rw [hzero, Graph.hasDot, Nat.zero_div] at hdot
    cases hdot
  obtain ⟨c, hcell, hchar, hcolor⟩ := showsDots_frame d (by omega) (by omega) hdots
  refine ⟨c, ?_, hcolor, ?_⟩
  · rwa [Nat.mul_add_div (by decide), Nat.mul_add_div (by decide)]
  · rwa [hchar, Graph.toNat_brailleChar (Graph.cellDots_lt _ _ _), Nat.add_sub_cancel_left,
      Nat.mul_add_mod, Nat.mul_add_mod]

end Dashboard

end IoWatch
