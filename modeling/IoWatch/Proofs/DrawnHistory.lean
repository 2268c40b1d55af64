import IoWatch.Proofs.ShownGraphs

/-!
# No entry is missing from the graphs

Both graphs are spread over the length of the history of reading, and each one is measured against
its own largest value. As long as the two histories have the same length, and their entries are
amounts, every entry is inside of its graph: it has a line, in a column of its own if there are
enough, and all of the line is shown on every frame.

## Main definitions

* `Graph.IsDrawn`: an entry has a line, and all of it is drawn
* `Dashboard.ShowsEntry`: all of the line of an entry is shown on a frame

## Main results

* `Graph.isDrawn`: an entry among amounts is drawn
* `Dashboard.showsEntry`: what is drawn is shown
* `no_entry_is_missing`: every entry of both histories
-/

namespace IoWatch

namespace Graph

open Binary64

variable {columns rows count i : Nat} {history : List Binary64} {v : Binary64}

/-- An entry has a line, and all of it is drawn, from its top down to the row of zero. -/
structure IsDrawn (columns rows count : Nat) (history : List Binary64) (i : Nat) (v : Binary64) :
    Prop where
  line?_eq : line? columns rows count (ceiling history) i v =
    some (i * (columns - 1) / count, dotRow rows (ceiling history) v)
  column_lt : i * (columns - 1) / count < columns
  /-- Its top is not below its end. -/
  dotRow_le_bottom :
    dotRow rows (ceiling history) v ≤ (lines columns rows count history).bottom
  isDot : ∀ y, dotRow rows (ceiling history) v ≤ y →
    y ≤ (lines columns rows count history).bottom →
      (lines columns rows count history).isDot (i * (columns - 1) / count) y
  /-- The largest entry reaches the top row, if it is not below one. -/
  dotRow_eq_zero : 1 ≤ v → (∀ w ∈ history, w ≤ v) → dotRow rows (ceiling history) v = 0
  /-- Lines end inside of the graph as long as the product of the largest value and the rows is
  finite. -/
  bottom_lt : (ceiling history * ofInt (rows - 1)).IsFinite →
    (lines columns rows count history).bottom < rows

/-- An entry among amounts is drawn. -/
theorem isDrawn (hcolumns : 0 < columns) (hrows : 0 < rows) (hlt : rows ≤ Nat.pow 2 52)
    (h : ∀ v ∈ history, v.IsFinite ∧ 0 ≤ v) (hi : i < count) (hv : history[i]? = some v) :
    IsDrawn columns rows count history i v := by
  have hinside := isInside_ceiling h (List.mem_of_getElem? hv)
  have hbits : rows ≤ Nat.pow 2 53 := Nat.le_trans hlt (by decide)
  have hline : line? columns rows count (ceiling history) i v =
      some (column columns count i, dotRow rows (ceiling history) v) := line?_of_isInside hinside hi
  have hcolumn := column_lt hcolumns hi
  refine ⟨hline, hcolumn, ?_, ?_, ?_, ?_⟩
  · exact hinside.zero.dotRow_le_dotRow hinside hrows hbits hinside.nonneg
  · intro y htop hbottom
    exact isDot_lines_iff.mpr ⟨hcolumn, ⟨i, v, hv, _, htop, hline⟩, hbottom⟩
  · intro hone hall
    apply hinside.dotRow_eq_zero hrows hbits
    rcases List.mem_cons.mp (isGreatest_ceiling fun w hw => (h w hw).1).1 with heq | hmem
    · rw [heq]
      exact hone
    · exact hall _ hmem
  · exact hinside.zero.dotRow_lt hrows hlt

end Graph

namespace Dashboard

variable {width height i : Nat} {side : Side} {v : Binary64}

/-- All of the line of an entry is shown on a frame, as far as it is in the graph. -/
def ShowsEntry (d : Dashboard) (width height : Nat) (side : Side) (i : Nat) (v : Binary64) : Prop :=
  let area := Layout.graphOn width height side
  ∀ y < 4 * area.height, Graph.dotRow (4 * area.height) (Graph.ceiling (d.history side)) v ≤ y →
    y ≤ (d.linesOn width height side).bottom →
      (d.frame width height).ShowsDot
        (2 * area.x + i * (2 * area.width - 1) / d.readHistory.length) (4 * area.y + y)
        side.graphColor

/-- The line of an entry among amounts is shown, on high and on low frames. -/
theorem showsEntry (d : Dashboard) (height : Nat) (hwidth : 3 ≤ width)
    (h : ∀ v ∈ d.history side, v.IsFinite ∧ 0 ≤ v) (hi : i < d.readHistory.length)
    (hv : (d.history side)[i]? = some v) : d.ShowsEntry width height side i v := by
  intro y hy htop hbottom
  have hrows : 4 * (Layout.graphOn width height side).height ≤ Nat.pow 2 52 :=
    Nat.le_trans (Nat.mul_le_mul_left 4 (Layout.graphOn_height_le width height side)) (by decide)
  have hcolumns : 0 < 2 * (Layout.graphOn width height side).width :=
    Nat.mul_pos (by decide) (Layout.graphOn_width_pos height side hwidth)
  have hdrawn := Graph.isDrawn hcolumns (Nat.zero_lt_of_lt hy) hrows h hi hv
  exact d.showsDot_frame hdrawn.column_lt hy (hdrawn.isDot y htop hbottom)

end Dashboard

/-- No entry of a history is missing from its graph, however wide the graph is, and its line is
shown on every frame. The columns keep the order of the entries, and each entry has one of its own
if there are enough of them. -/
theorem no_entry_is_missing (d : Dashboard) {n : Nat} (hn : 1 ≤ n)
    (hlength : ∀ side, (d.history side).length = n)
    (hamounts : ∀ side, ∀ v ∈ d.history side, v.IsFinite ∧ 0 ≤ v) (side : Side) :
    (∀ W, 1 ≤ W →
      (∀ i v, (d.history side)[i]? = some v →
        Graph.IsDrawn (2 * W) 24 d.readHistory.length (d.history side) i v) ∧
      (∀ i j, i ≤ j → i * (2 * W - 1) / n ≤ j * (2 * W - 1) / n) ∧
      (n ≤ 2 * W - 1 → ∀ i j, i ≠ j → i * (2 * W - 1) / n ≠ j * (2 * W - 1) / n)) ∧
    ∀ width height, 3 ≤ width →
      (23 ≤ height → (Layout.graphOn width height side).height = 6) ∧
      ∀ i v, (d.history side)[i]? = some v → d.ShowsEntry width height side i v := by
  have hindex : ∀ i v, (d.history side)[i]? = some v → i < d.readHistory.length := by
    intro i v hv
    have hi := (List.getElem?_eq_some_iff.mp hv).1
    have hread : d.readHistory.length = n := hlength .read
    rwa [hread, ← hlength side]
  refine ⟨fun W hW => ⟨?_, ?_, ?_⟩, fun width height hwidth => ⟨?_, ?_⟩⟩
  · intro i v hv
    exact Graph.isDrawn (by omega) (by decide) (by decide) (hamounts side) (hindex i v hv) hv
  · intro i j h
    exact Graph.column_mono (2 * W) n h
  · intro hcolumns i j hne
    rcases Nat.lt_or_gt_of_ne hne with hlt | hgt
    · exact Nat.ne_of_lt (Graph.column_lt_column hn hcolumns hlt)
    · exact Nat.ne_of_gt (Graph.column_lt_column hn hcolumns hgt)
  · exact Layout.graphOn_height width side
  · intro i v hv
    exact d.showsEntry height hwidth (hamounts side) (hindex i v hv) hv

/-- Two entries in each history, on a frame of 80 columns and 24 rows, whose graphs are 59 columns
wide. The larger entry of reading comes last; its line reaches the top row of the graph. -/
theorem no_entry_is_missing_of_two :
    let d : Dashboard := ⟨7, 1000, [0, 1], [1, 0], ⟨1, ⟨0⟩⟩, ⟨1, ⟨0⟩⟩,
      ⟨0, .initial, .ofKb 0 0, .ofKb 0 0⟩⟩
    (∀ side, (d.history side).length = 2) ∧
    (∀ side, ∀ v ∈ d.history side, v.IsFinite ∧ 0 ≤ v) ∧
    (∀ side i v, (d.history side)[i]? = some v → d.ShowsEntry 80 24 side i v) ∧
    Graph.line? (2 * 59) 24 d.readHistory.length (Graph.ceiling d.readHistory) 1 1 =
      some (1 * (2 * 59 - 1) / 2, 0) ∧
    0 * (2 * 59 - 1) / 2 ≠ 1 * (2 * 59 - 1) / 2 := by
  intro d
  have hle : (1 : Binary64) ≤ 1 := Binary64.isFinite_one.le_rfl
  have hone : (1 : Binary64).IsFinite ∧ (0 : Binary64) ≤ 1 :=
    ⟨Binary64.isFinite_one, by decide +kernel⟩
  have hzero : (0 : Binary64).IsFinite ∧ (0 : Binary64) ≤ 0 :=
    ⟨Binary64.isAmount_zero.isFinite, Binary64.isAmount_zero.nonneg⟩
  have hlength : ∀ side, (d.history side).length = 2 := by
    intro side
    cases side <;> rfl
  have hamounts : ∀ side, ∀ v ∈ d.history side, v.IsFinite ∧ 0 ≤ v := by
    intro side
    cases side with
    | read => exact List.forall_mem_cons.mpr ⟨hzero, List.forall_mem_singleton.mpr hone⟩
    | write => exact List.forall_mem_cons.mpr ⟨hone, List.forall_mem_singleton.mpr hzero⟩
  obtain ⟨hdrawn, -, happart⟩ :=
    (no_entry_is_missing d (by decide) hlength hamounts .read).1 59 (by decide)
  have hlast := hdrawn 1 1 rfl
  have htop := hlast.dotRow_eq_zero hle
    (List.forall_mem_cons.mpr ⟨hone.2, List.forall_mem_singleton.mpr hle⟩)
  refine ⟨hlength, hamounts, ?_, ?_, ?_⟩
  · intro side
    exact ((no_entry_is_missing d (by decide) hlength hamounts side).2 80 24 (by decide)).2
  · rw [← htop]
    exact hlast.line?_eq
  · exact happart (by decide) 0 1 (by decide)

end IoWatch
