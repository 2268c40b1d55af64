import IoWatch.Dashboard.Graph

/-!
# What painting leaves alone

Whatever is painted from a corner on stays right of that corner and below it, and leaves the size of
the screen as it is. So a cell that has been painted is only covered by what begins neither right of
it nor below it. A graph is painted cell by cell, each to the right of the one before it or below
it, and so it shows the dots of all of its cells.

## Main definitions

* `Area.lines`: the lines of a graph that fills an area
* `Screen.cell?`: a cell of a screen, by its column and row
* `Screen.IsWhole`: a screen has all of its cells
* `Screen.PaintsFrom`: painting from a corner on
* `Screen.ShowsDots`: a cell shows dots in a colour

## Main results

* `Screen.PaintsFrom.trans`, `Screen.PaintsFrom.next`, `Screen.PaintsFrom.foldl`: one painting
  behind the other
* `Screen.paintsFrom_fill`, `Screen.paintsFrom_writeAll`, `Screen.paintsFrom_frame`,
  `Screen.paintsFrom_graph`: areas, texts, borders and graphs
* `Screen.ShowsDots.of_paintsFrom`: what does not cover the dots of a cell
* `Screen.showsDots_graph`: a graph shows the dots of each of its cells
-/

namespace IoWatch

/-- The lines of a graph that fills an area. -/
def Area.lines (a : Area) (count : Nat) (history : List Binary64) : Graph.Lines :=
  Graph.lines (2 * a.width) (4 * a.height) count history

namespace Screen

variable {s s' t : Screen} {x y x' y' : Nat}

/-- Cells of an upper row come before those of a lower one. -/
theorem index_lt_index {width : Nat} (hx : x < width) (h : y < y') (x' : Nat) :
    y * width + x < y' * width + x' := by
  calc y * width + x < y * width + width := Nat.add_lt_add_left hx _
    _ = (y + 1) * width := (Nat.succ_mul y width).symm
    _ ≤ y' * width := Nat.mul_le_mul_right _ h
    _ ≤ y' * width + x' := Nat.le_add_right _ _

/-- The place of a cell has its column and row. -/
theorem index_inj {width : Nat} (hx : x < width) (hx' : x' < width)
    (h : y * width + x = y' * width + x') : x = x' ∧ y = y' := by
  rcases Nat.lt_trichotomy y y' with hlt | rfl | hgt
  · have := index_lt_index hx hlt x'
    omega
  · omega
  · have := index_lt_index hx' hgt x
    omega

/-- The cell of a column and row. -/
def cell? (s : Screen) (x y : Nat) : Option Cell :=
  if x < s.width ∧ y < s.height then s.cells[y * s.width + x]? else none

/-- A screen has all of its cells. -/
def IsWhole (s : Screen) : Prop := s.cells.size = s.width * s.height

theorem isWhole_blank (width height : Nat) : (blank width height).IsWhole := Array.size_replicate

/-- There is a cell in each column and row. -/
theorem IsWhole.exists_cell? (hs : s.IsWhole) (hx : x < s.width) (hy : y < s.height) :
    ∃ c, s.cell? x y = some c := by
  have hlt : y * s.width + x < s.cells.size := by
    have h := index_lt_index hx hy 0
    rwa [Nat.add_zero, Nat.mul_comm s.height, ← hs] at h
  rw [cell?, if_pos ⟨hx, hy⟩]
  exact ⟨_, Array.getElem?_eq_getElem hlt⟩

/-- What has been painted lies right of a corner and below it; the size stays. -/
structure PaintsFrom (x y : Nat) (s s' : Screen) : Prop where
  width_eq : s'.width = s.width
  height_eq : s'.height = s.height
  size_eq : s'.cells.size = s.cells.size
  cell?_eq : ∀ x' y', x' < x ∨ y' < y → s'.cell? x' y' = s.cell? x' y'

namespace PaintsFrom

theorem refl (x y : Nat) (s : Screen) : PaintsFrom x y s s :=
  ⟨rfl, rfl, rfl, fun _ _ _ => rfl⟩

theorem trans (h : PaintsFrom x y s s') (h' : PaintsFrom x y s' t) : PaintsFrom x y s t where
  width_eq := h'.width_eq.trans h.width_eq
  height_eq := h'.height_eq.trans h.height_eq
  size_eq := h'.size_eq.trans h.size_eq
  cell?_eq x' y' hout := (h'.cell?_eq x' y' hout).trans (h.cell?_eq x' y' hout)

/-- A corner further right and below paints less. -/
theorem mono (h : PaintsFrom x' y' s s') (hx : x ≤ x') (hy : y ≤ y') : PaintsFrom x y s s' :=
  { h with cell?_eq := fun x'' y'' hout => h.cell?_eq x'' y'' (by omega) }

/-- Painting goes on from a corner further right and below. -/
theorem next (h : PaintsFrom x y s s') (h' : PaintsFrom x' y' s' t) (hx : x ≤ x') (hy : y ≤ y') :
    PaintsFrom x y s t :=
  h.trans (h'.mono hx hy)

theorem foldl {α : Type} {f : Screen → α → Screen} (l : List α)
    (hf : ∀ a s, PaintsFrom x y s (f s a)) (s : Screen) : PaintsFrom x y s (l.foldl f s) := by
  induction l generalizing s with
  | nil => exact .refl x y s
  | cons a l ih => exact (hf a s).trans (ih (f s a))

/-- The cells are where they were. -/
theorem isSome_cell? (h : PaintsFrom x y s s') (x' y' : Nat) :
    (s'.cell? x' y').isSome = (s.cell? x' y').isSome := by
  rw [cell?, cell?, h.width_eq, h.height_eq]
  split
  · rw [Bool.eq_iff_iff, Option.isSome_iff_ne_none, Option.isSome_iff_ne_none, ne_eq, ne_eq,
      Array.getElem?_eq_none_iff, Array.getElem?_eq_none_iff, h.size_eq]
  · rfl

end PaintsFrom

/-! ## Cells -/

theorem cell?_change_self (s : Screen) (x y : Nat) (f : Cell → Cell) :
    (s.change x y f).cell? x y = (s.cell? x y).map f := by
  rw [change]
  split
  next hin =>
    rw [cell?, cell?, if_pos hin, if_pos hin, Array.getElem?_modify, if_pos rfl]
  next hout => simp [cell?, hout]

theorem paintsFrom_change (s : Screen) (x y : Nat) (f : Cell → Cell) :
    PaintsFrom x y s (s.change x y f) := by
  rw [change]
  split
  next hin =>
    refine ⟨rfl, rfl, Array.size_modify, ?_⟩
    intro x' y' hout
    rw [cell?, cell?]
    split
    next hin' =>
      rw [Array.getElem?_modify, if_neg]
      intro heq
      have := index_inj hin.1 hin'.1 heq
      omega
    next => rfl
  next => exact .refl x y s

theorem paintsFrom_put (s : Screen) (x y : Nat) (c : Char) (style : Style) :
    PaintsFrom x y s (s.put x y c style) :=
  paintsFrom_change s x y _

/-! ## Areas, texts and borders -/

/-- Painting the cells of an area one by one. -/
theorem paintsFrom_cells {f : Nat → Nat → Screen → Screen} (a : Area)
    (hf : ∀ dx dy s, PaintsFrom (a.x + dx) (a.y + dy) s (f dx dy s)) (s : Screen) :
    PaintsFrom a.x a.y s ((List.range a.height).foldl
      (fun s dy => (List.range a.width).foldl (fun s dx => f dx dy s) s) s) := by
  apply PaintsFrom.foldl
  intro dy s
  apply PaintsFrom.foldl
  intro dx s
  exact (hf dx dy s).mono (Nat.le_add_right _ _) (Nat.le_add_right _ _)

theorem paintsFrom_fill (s : Screen) (a : Area) (style : Style) :
    PaintsFrom a.x a.y s (s.fill a style) :=
  paintsFrom_cells a (fun dx dy s => paintsFrom_change s (a.x + dx) (a.y + dy) _) s

theorem paintsFrom_write (s : Screen) (x y width : Nat) (text : List Char) (style : Style) :
    PaintsFrom x y s (s.write x y width text style) := by
  apply PaintsFrom.foldl
  rintro ⟨c, dx⟩ s
  exact (paintsFrom_put s (x + dx) y c style).mono (Nat.le_add_right _ _) (Nat.le_refl _)

theorem paintsFrom_title (s : Screen) (a : Area) (text : List Char) (style : Style) :
    PaintsFrom a.x a.y s (s.title a text style) := by
  rw [title]
  split
  · exact .refl a.x a.y s
  · exact paintsFrom_write s a.x a.y a.width text style

theorem paintsFrom_writeAll (parts : List (List Char × Style)) (s : Screen) (x y width : Nat) :
    PaintsFrom x y s (s.writeAll x y width parts) := by
  induction parts generalizing s x width with
  | nil => exact .refl x y s
  | cons part parts ih =>
    obtain ⟨text, style⟩ := part
    refine (paintsFrom_write s x y width text style).trans ?_
    exact (ih _ _ _).mono (Nat.le_add_right _ _) (Nat.le_refl _)

theorem paintsFrom_frame (s : Screen) (a : Area) (style : Style) :
    PaintsFrom a.x a.y s (s.frame a style) := by
  have hput : ∀ {s t : Screen} {x y : Nat} {c : Char}, PaintsFrom a.x a.y s t → a.x ≤ x → a.y ≤ y →
      PaintsFrom a.x a.y s (t.put x y c style) :=
    fun h hx hy => h.next (paintsFrom_put _ _ _ _ style) hx hy
  rw [frame]
  split
  · exact .refl a.x a.y s
  next hsize =>
    have hright : a.x ≤ a.x + a.width - 1 := by omega
    have hbottom : a.y ≤ a.y + a.height - 1 := by omega
    apply hput _ (Nat.le_refl _) (Nat.le_refl _)
    apply hput _ (Nat.le_refl _) hbottom
    apply hput _ hright (Nat.le_refl _)
    apply hput _ hright hbottom
    refine .trans (.foldl _ ?_ s) (.foldl _ ?_ _)
    · intro dx s
      apply hput _ (Nat.le_add_right _ _) hbottom
      exact hput (.refl _ _ s) (Nat.le_add_right _ _) (Nat.le_refl _)
    · intro dy s
      apply hput _ hright (Nat.le_add_right _ _)
      exact hput (.refl _ _ s) (Nat.le_refl _) (Nat.le_add_right _ _)

/-! ## Graphs -/

theorem paintsFrom_putDots (s : Screen) (x y : Nat) (color : Color) (dots : Nat) :
    PaintsFrom x y s (s.putDots x y color dots) := by
  cases dots with
  | zero => exact .refl x y s
  | succ dots => exact paintsFrom_put s x y _ _

theorem paintsFrom_graph (s : Screen) (a : Area) (count : Nat) (history : List Binary64)
    (color : Color) : PaintsFrom a.x a.y s (s.graph a count history color) :=
  paintsFrom_cells a (fun dx dy s => paintsFrom_putDots s (a.x + dx) (a.y + dy) color _) s

/-- A cell shows dots in a colour. -/
def ShowsDots (s : Screen) (x y : Nat) (color : Color) (dots : Nat) : Prop :=
  ∃ c, s.cell? x y = some c ∧ c.char = Graph.brailleChar dots ∧ c.foreground = color

variable {color : Color} {dots : Nat}

/-- What is painted further right or below does not cover them. -/
theorem ShowsDots.of_paintsFrom (h : s.ShowsDots x y color dots) (hpaint : PaintsFrom x' y' s t)
    (hout : x < x' ∨ y < y') : t.ShowsDots x y color dots := by
  rwa [ShowsDots, hpaint.cell?_eq x y hout]

theorem showsDots_putDots (hcell : (s.cell? x y).isSome) (hdots : dots ≠ 0) :
    (s.putDots x y color dots).ShowsDots x y color dots := by
  obtain ⟨c, hc⟩ := Option.isSome_iff_exists.mp hcell
  obtain ⟨k, rfl⟩ := Nat.exists_eq_succ_of_ne_zero hdots
  have hput := cell?_change_self s x y fun cell =>
    ({ cell with char := Graph.brailleChar (k + 1) }).styled ⟨some color, none, false⟩
  rw [hc, Option.map_some] at hput
  exact ⟨_, hput, rfl, rfl⟩

/-- What one step of a loop shows is there in the end if all later steps begin right of it or below
it. -/
theorem showsDots_foldl {f : Nat → Screen → Screen} {n j : Nat} (hj : j < n)
    (left upper : Nat → Nat) (hf : ∀ i s, PaintsFrom (left i) (upper i) s (f i s))
    (hlater : ∀ i, j < i → x < left i ∨ y < upper i)
    (hstep : ∀ s : Screen, (s.cell? x y).isSome → (f j s).ShowsDots x y color dots)
    (hcell : (s.cell? x y).isSome) :
    ((List.range n).foldl (fun s i => f i s) s).ShowsDots x y color dots := by
  have hsome : ∀ n, (((List.range n).foldl (fun s i => f i s) s).cell? x y).isSome := by
    intro n
    have hpaint : PaintsFrom 0 0 s ((List.range n).foldl (fun s i => f i s) s) :=
      .foldl _ (fun i s => (hf i s).mono (Nat.zero_le _) (Nat.zero_le _)) s
    rwa [hpaint.isSome_cell?]
  induction n with
  | zero => exact absurd hj (Nat.not_lt_zero j)
  | succ n ih =>
    rw [List.range_succ, List.foldl_append]
    rcases Nat.lt_succ_iff_lt_or_eq.mp hj with hlt | rfl
    · exact (ih hlt).of_paintsFrom (hf n _) (hlater n hlt)
    · exact hstep _ (hsome j)

/-- A graph shows the dots of each of its cells, which are drawn row by row and each row from left
to right. -/
theorem showsDots_graph {a : Area} {dx dy count : Nat} {history : List Binary64} (color : Color)
    (hcell : (s.cell? (a.x + dx) (a.y + dy)).isSome) (hdx : dx < a.width) (hdy : dy < a.height)
    (hdots : (a.lines count history).cellDots dx dy ≠ 0) :
    (s.graph a count history color).ShowsDots (a.x + dx) (a.y + dy) color
      ((a.lines count history).cellDots dx dy) := by
  apply showsDots_foldl hdy (fun _ => a.x) (fun i => a.y + i) _ _ _ hcell
  · intro i s
    apply PaintsFrom.foldl
    intro dx s
    exact (paintsFrom_putDots s _ _ color _).mono (Nat.le_add_right _ _) (Nat.le_refl _)
  · intro i hi
    exact .inr (Nat.add_lt_add_left hi a.y)
  · intro s hs
    apply showsDots_foldl hdx (fun i => a.x + i) (fun _ => a.y + dy) _ _ _ hs
    · intro i s
      exact paintsFrom_putDots s _ _ color _
    · intro i hi
      exact .inl (Nat.add_lt_add_left hi a.x)
    · intro s hs
      exact showsDots_putDots hs hdots

end Screen

end IoWatch
