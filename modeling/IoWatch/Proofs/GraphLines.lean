import IoWatch.Proofs.GraphRows
import IoWatch.Proofs.Utf8

/-!
# Lines of a graph

A line is drawn if its entry has a place in the history and its value is inside of the graph. The
columns of the entries are spread evenly, so they keep the order of the entries, and are different
ones if there are enough. In its column a line covers everything from its top to the row of zero. A
cell of the graph is two dots wide and four dots high, and the code of its character has one bit for
each of them.

## Main definitions

* `Graph.raise`, `Graph.Reaches`: drawing one more line, and the rows that a column reaches up to
* `Graph.dotsOf`, `Graph.hasDot`: the code of a cell's dots, and the dots of a code

## Main results

* `Graph.column_lt`, `Graph.column_mono`, `Graph.column_lt_column`: the columns of entries
* `Graph.line?_of_isInside`: the line of a value inside of the graph
* `Graph.reaches_foldl_iff`: what drawing some lines covers
* `Graph.isDot_lines_iff`: the dots of a graph are those of the lines of its entries
* `Graph.hasDot_cellDots`: the code of a cell has the bits of its dots
-/

namespace IoWatch

namespace Graph

/-! ## Columns -/

section Columns

variable {columns count i j : Nat}

/-- The column of an entry is one of the graph. -/
theorem column_lt (hcolumns : 0 < columns) (hi : i < count) : column columns count i < columns := by
  have hle : column columns count i ≤ columns - 1 := by
    apply Nat.div_le_of_le_mul
    exact Nat.mul_le_mul_right _ (Nat.le_of_lt hi)
  omega

/-- Columns keep the order of the entries. -/
theorem column_mono (columns count : Nat) (h : i ≤ j) :
    column columns count i ≤ column columns count j :=
  Nat.div_le_div_right (Nat.mul_le_mul_right _ h)

/-- If there are enough columns, each entry has one of its own. -/
theorem column_lt_column (hcount : 0 < count) (hcolumns : count ≤ columns - 1) (h : i < j) :
    column columns count i < column columns count j := by
  calc column columns count i < (i * (columns - 1) + count) / count := by
        rw [Nat.add_div_right _ hcount]
        exact Nat.lt_succ_self _
    _ ≤ column columns count (i + 1) := by
        rw [column, Nat.succ_mul]
        exact Nat.div_le_div_right (Nat.add_le_add_left hcolumns _)
    _ ≤ column columns count j := column_mono columns count h

end Columns

/-! ## Lines -/

section Lines

variable {columns rows count i x y : Nat} {history : List Binary64} {top v : Binary64}

open Binary64

theorem isOutside_eq_false (hv : IsInside top v) : isOutside top v = false := by
  have hnonneg := (hv.isFinite.not_lt_iff isAmount_zero.isFinite).mpr hv.nonneg
  have hle := (hv.isFinite_top.not_lt_iff hv.isFinite).mpr hv.le_top
  rw [isOutside, decide_eq_false hnonneg, decide_eq_false hle, Bool.or_false]

/-- A value inside of the graph has a line. -/
theorem line?_of_isInside (hv : IsInside top v) (hi : i < count) :
    line? columns rows count top i v = some (column columns count i, dotRow rows top v) := by
  have hdrawn : ¬ (isOutside top v ∨ count < i ∨ count = 0) := by
    rw [isOutside_eq_false hv, Bool.false_eq_true, false_or]
    omega
  rw [line?, if_neg hdrawn]

/-- The tops of the columns after one more line is drawn. -/
def raise (tops : Array (Option Nat)) : Nat × Nat → Array (Option Nat)
  | (x, y) => tops.modify x fun t => some (match t with | some z => min y z | none => y)

/-- The lines in a column reach up to a row, or higher. -/
def Reaches (tops : Array (Option Nat)) (x y : Nat) : Prop := ∃ t ≤ y, tops[x]? = some (some t)

variable {tops : Array (Option Nat)}

theorem size_raise (tops : Array (Option Nat)) (line : Nat × Nat) :
    (raise tops line).size = tops.size :=
  Array.size_modify

/-- One more line covers its column from its top on. -/
theorem reaches_raise_iff (line : Nat × Nat) :
    Reaches (raise tops line) x y ↔
      Reaches tops x y ∨ x < tops.size ∧ line.1 = x ∧ line.2 ≤ y := by
  obtain ⟨x', y'⟩ := line
  simp only [Reaches, raise, Array.getElem?_modify]
  split
  next heq =>
    subst heq
    rcases htop : tops[x']? with _ | _ | t
    · have hsize : ¬ x' < tops.size := Nat.not_lt.mpr (Array.getElem?_eq_none_iff.mp htop)
      simp [hsize]
    · have hsize : x' < tops.size := (Array.getElem?_eq_some_iff.mp htop).1
      simp [hsize]
    · have hsize : x' < tops.size := (Array.getElem?_eq_some_iff.mp htop).1
      simp [hsize]
      omega
  next hne => simp [hne]

/-- Lines cover their columns from their tops on, and nothing else. -/
theorem reaches_foldl_iff (drawn : List (Nat × Nat)) :
    Reaches (drawn.foldl raise tops) x y ↔
      Reaches tops x y ∨ x < tops.size ∧ ∃ line ∈ drawn, line.1 = x ∧ line.2 ≤ y := by
  induction drawn generalizing tops with
  | nil => simp
  | cons line drawn ih =>
    rw [List.foldl_cons, ih, reaches_raise_iff, size_raise, or_assoc, ← and_or_left]
    simp only [List.mem_cons, exists_eq_or_imp]

theorem isDot_iff (l : Lines) : l.isDot x y ↔ Reaches l.tops x y ∧ y ≤ l.bottom := by
  rw [Lines.isDot, Reaches]
  split
  next t ht => simp [ht]
  next hnone =>
    have hnot : ¬ ∃ t ≤ y, l.tops[x]? = some (some t) := fun ⟨t, _, ht⟩ => hnone t ht
    simp [hnot]

/-- The dots of a graph are those of the lines of its entries. -/
theorem isDot_lines_iff : (lines columns rows count history).isDot x y ↔
    x < columns ∧ (∃ i v, history[i]? = some v ∧
      ∃ t ≤ y, line? columns rows count (ceiling history) i v = some (x, t)) ∧
        y ≤ (lines columns rows count history).bottom := by
  have hblank : ¬ Reaches (Array.replicate columns none) x y := by
    rintro ⟨t, -, ht⟩
    rw [Array.getElem?_replicate] at ht
    split at ht <;> cases ht
  rw [isDot_iff]
  show Reaches (List.foldl raise _ _) x y ∧ _ ↔ _
  rw [reaches_foldl_iff, Array.size_replicate, or_iff_right hblank, and_assoc]
  apply and_congr_right
  intro _
  apply and_congr_left
  intro _
  simp only [List.mem_filterMap, List.mem_zipIdx_iff_getElem?, Prod.exists]
  constructor
  · rintro ⟨_, t, ⟨v, i, hv, hline⟩, rfl, ht⟩
    exact ⟨i, v, hv, t, ht, hline⟩
  · rintro ⟨i, v, hv, t, ht, hline⟩
    exact ⟨x, t, ⟨v, i, hv, hline⟩, rfl, ht⟩

end Lines

/-! ## Cells -/

section Cells

variable {dx dy : Nat}

/-- The code of a cell's dots, which are given by their columns and rows. -/
def dotsOf (isDot : Nat → Nat → Bool) : Nat :=
  ((List.range 2).flatMap fun dx => (List.range 4).map fun dy =>
    if isDot dx dy then dotValue dx dy else 0).foldl (· + ·) 0

theorem cellDots_eq (l : Lines) (x y : Nat) :
    l.cellDots x y = dotsOf fun dx dy => l.isDot (2 * x + dx) (4 * y + dy) := rfl

theorem dotsOf_eq (isDot : Nat → Nat → Bool) : dotsOf isDot =
    (isDot 0 0).toNat + 2 * (isDot 0 1).toNat + 4 * (isDot 0 2).toNat + 64 * (isDot 0 3).toNat +
      8 * (isDot 1 0).toNat + 16 * (isDot 1 1).toNat + 32 * (isDot 1 2).toNat +
      128 * (isDot 1 3).toNat := by
  have hvalue : ∀ (b : Bool) (n : Nat), (if b then n else 0) = n * b.toNat := by
    intro b n
    cases b <;> simp
  simp only [dotsOf, hvalue]
  show 0 + 1 * (isDot 0 0).toNat + _ + _ + _ + _ + _ + _ + _ = _
  simp only [dotValue]
  omega

/-- Whether a code has the bit of a dot. -/
def hasDot (dots dx dy : Nat) : Bool := dots / dotValue dx dy % 2 = 1

theorem bits_le_one (isDot : Nat → Nat → Bool) :
    (isDot 0 0).toNat ≤ 1 ∧ (isDot 0 1).toNat ≤ 1 ∧ (isDot 0 2).toNat ≤ 1 ∧
      (isDot 0 3).toNat ≤ 1 ∧ (isDot 1 0).toNat ≤ 1 ∧ (isDot 1 1).toNat ≤ 1 ∧
      (isDot 1 2).toNat ≤ 1 ∧ (isDot 1 3).toNat ≤ 1 := by
  simp only [Bool.toNat_le, and_self]

theorem cellDots_lt (l : Lines) (x y : Nat) : l.cellDots x y < 256 := by
  have hbits := bits_le_one fun dx dy => l.isDot (2 * x + dx) (4 * y + dy)
  rw [cellDots_eq, dotsOf_eq]
  omega

/-- A code has the bits of its dots. -/
theorem hasDot_dotsOf (isDot : Nat → Nat → Bool) (hdx : dx < 2) (hdy : dy < 4) :
    hasDot (dotsOf isDot) dx dy = isDot dx dy := by
  have hbits := bits_le_one isDot
  have hdx' : dx = 0 ∨ dx = 1 := by omega
  have hdy' : dy = 0 ∨ dy = 1 ∨ dy = 2 ∨ dy = 3 := by omega
  rw [Bool.eq_iff_iff, hasDot, decide_eq_true_eq, ← Bool.toNat_eq_one, dotsOf_eq]
  rcases hdx' with rfl | rfl <;> rcases hdy' with rfl | rfl | rfl | rfl <;>
    simp only [dotValue] <;> omega

theorem hasDot_cellDots (l : Lines) (x y : Nat) :
    hasDot (l.cellDots (x / 2) (y / 4)) (x % 2) (y % 4) = l.isDot x y := by
  rw [cellDots_eq, hasDot_dotsOf _ (Nat.mod_lt x (by decide)) (Nat.mod_lt y (by decide)),
    Nat.div_add_mod, Nat.div_add_mod]

/-- A character in Braille has the code that it is made from. -/
theorem toNat_brailleChar {dots : Nat} (h : dots < 256) :
    (brailleChar dots).toNat = 0x2800 + dots := by
  apply Utf8.toNat_val_ofNat
  left
  omega

end Cells

end Graph

end IoWatch
