import IoWatch.Abort
import IoWatch.Toml.Document
import Mathlib.Data.List.Nodup

/-!
# The table of a document

While a document is read, values only ever enter its table by being put under a key, in place of
what stood there. So no key stands in the table twice. A value that is read is an integer only if
that is a word, and all that headers and dotted keys put on the way is tables.

Only the table of the document itself is looked at; what the tables in it hold is left open.

## Main definitions

* `Toml.Value.Fits`: an integer is a word
* `Toml.IsSound`: a table with each key once and no integer that is too large

## Main results

* `Toml.IsSound.put`, `Toml.IsSound.descend`: what the changes of a table keep
* `Toml.isSound_of_line`, `Toml.isSound_of_parse`: what a line keeps, and the table of a document
* `Toml.IsSound.lookup_eq_some_iff`: the order of such a table does not matter
-/

namespace IoWatch

namespace Toml

/-- A value that is an integer only if that is a word. -/
def Value.Fits (v : Value) : Prop := ∀ i, v = .integer i → IsWord i

/-- Every key of a table stands in it once, and every integer in it is a word. -/
structure IsSound (t : Table) : Prop where
  nodup : (t.map Prod.fst).Nodup
  fits : ∀ entry ∈ t, entry.2.Fits

/-! ## Values -/

section Values

variable {cs rest : List Char} {i j : Int} {v : Value}

theorem isWord_of_word? (h : word? i = some j) : IsWord j := by
  obtain ⟨hword, hij⟩ := Option.ite_none_right_eq_some.mp h
  rw [← Option.some.inj hij]
  exact hword

theorem isWord_of_based {base : Nat} {isDigit : Char → Bool}
    (h : based base isDigit cs = some (i, rest)) : IsWord i := by
  simp only [based, Option.bind_eq_bind, Option.bind_eq_some_iff] at h
  obtain ⟨ds, -, j, hj, heq⟩ := h
  cases heq
  exact isWord_of_word? hj

theorem isWord_of_integer (h : integer cs = some (i, rest)) : IsWord i := by
  unfold integer at h
  split at h
  · exact isWord_of_based h
  · exact isWord_of_based h
  · exact isWord_of_based h
  · simp only [Option.bind_eq_bind, Option.bind_eq_some_iff] at h
    obtain ⟨ds, -, j, hj, heq⟩ := h
    cases heq
    exact isWord_of_word? hj

theorem fits_of_numeric (h : numeric cs = some (v, rest)) : v.Fits := by
  unfold numeric at h
  cases hdate : dateTime cs with
  | some r =>
    rw [hdate] at h
    cases h
    rintro i ⟨⟩
  | none =>
    cases hfloat : float cs with
    | some r =>
      rw [hdate, hfloat] at h
      cases h
      rintro i ⟨⟩
    | none =>
      rw [hdate, hfloat] at h
      obtain ⟨⟨j, tail⟩, hj, heq⟩ := Option.map_eq_some_iff.mp h
      cases heq
      rintro i ⟨⟩
      exact isWord_of_integer hj

/-- An integer that is read as a value is a word. -/
theorem fits_of_value {depth : Nat} (h : value depth cs = some (v, rest)) : v.Fits := by
  cases depth with
  | zero => cases h
  | succ depth =>
    simp only [value] at h
    split at h
    · obtain ⟨-, hitems⟩ := Option.ite_none_left_eq_some.mp h
      obtain ⟨_, -, heq⟩ := Option.map_eq_some_iff.mp hitems
      cases heq
      rintro i ⟨⟩
    · obtain ⟨-, hitems⟩ := Option.ite_none_left_eq_some.mp h
      obtain ⟨_, -, heq⟩ := Option.map_eq_some_iff.mp hitems
      cases heq
      rintro i ⟨⟩
    · obtain ⟨_, -, heq⟩ := Option.map_eq_some_iff.mp h
      cases heq
      rintro i ⟨⟩
    · obtain ⟨_, -, heq⟩ := Option.map_eq_some_iff.mp h
      cases heq
      rintro i ⟨⟩
    · cases h
      rintro i ⟨⟩
    · cases h
      rintro i ⟨⟩
    · exact fits_of_numeric h

end Values

/-! ## Changes of a table -/

section Tables

variable {t t' : Table} {key k : String} {v : Value} {path : List String}

theorem fits_table (origin : Origin) (entries : Table) : (Value.table origin entries).Fits := by
  rintro i ⟨⟩

theorem fits_tables (elements : List Table) : (Value.tables elements).Fits := by
  rintro i ⟨⟩

theorem isSound_nil : IsSound [] := ⟨List.nodup_nil, List.forall_mem_nil _⟩

theorem mem_keys_put : k ∈ (put t key v).map Prod.fst ↔ k = key ∨ k ∈ t.map Prod.fst := by
  fun_induction put t key v with
  | case1 => simp
  | case2 w rest => simp
  | case3 k' w rest hne ih =>
    rw [List.map_cons, List.mem_cons, ih, List.map_cons, List.mem_cons]
    exact or_left_comm

theorem IsSound.put (h : IsSound t) (key : String) (hv : v.Fits) : IsSound (put t key v) := by
  obtain ⟨hnodup, hfits⟩ := h
  fun_induction Toml.put t key v with
  | case1 => exact ⟨by simp, by simpa using hv⟩
  | case2 w rest =>
    rw [List.forall_mem_cons] at hfits
    exact ⟨hnodup, List.forall_mem_cons.mpr ⟨hv, hfits.2⟩⟩
  | case3 k' w rest hne ih =>
    rw [List.map_cons, List.nodup_cons] at hnodup
    rw [List.forall_mem_cons] at hfits
    obtain ⟨hrest, hrest'⟩ := ih hnodup.2 hfits.2
    refine ⟨?_, List.forall_mem_cons.mpr ⟨hfits.1, hrest'⟩⟩
    rw [List.map_cons, List.nodup_cons, mem_keys_put, not_or]
    exact ⟨⟨hne, hnodup.1⟩, hrest⟩

/-- A table with what is read further put under a key. -/
theorem IsSound.put_of_bind {α : Type} {x : Option α} {inner : α → Value} (h : IsSound t)
    (hinner : ∀ a, (inner a).Fits)
    (ht' : (x >>= fun a => some (Toml.put t k (inner a))) = some t') : IsSound t' := by
  obtain ⟨a, -, heq⟩ := Option.bind_eq_some_iff.mp ht'
  rw [← Option.some.inj heq]
  exact h.put k (hinner a)

/-- Behind a dotted key only the tables on the way are put back. -/
theorem IsSound.insertDotted (h : IsSound t) (hv : v.Fits)
    (ht' : insertDotted t path key v = some t') : IsSound t' := by
  cases path with
  | nil =>
    obtain ⟨-, heq⟩ := Option.ite_none_left_eq_some.mp ht'
    rw [← Option.some.inj heq]
    exact h.put key hv
  | cons k path =>
    simp only [Toml.insertDotted] at ht'
    split at ht'
    · exact h.put_of_bind (fits_table _) ht'
    · exact h.put_of_bind (fits_table _) (Option.ite_none_left_eq_some.mp ht').2
    · split at ht'
      · cases ht'
      · cases ht'
      · exact h.put_of_bind (fun _ => fits_tables _) ht'
    · cases ht'

theorem IsSound.insertAt (h : IsSound t) (hv : v.Fits) (ht' : insertAt t path v = some t') :
    IsSound t' := by
  unfold Toml.insertAt at ht'
  split at ht'
  · cases ht'
  · exact h.insertDotted hv ht'

/-- A change of the table that names lead to changes a document in this table, or puts the tables on
the way back. -/
theorem IsSound.descend {change : Table → Option Table} (h : IsSound t)
    (hchange : ∀ t', change t = some t' → IsSound t')
    (ht' : descend t change path = some t') : IsSound t' := by
  cases path with
  | nil => exact hchange t' ht'
  | cons k path =>
    simp only [Toml.descend] at ht'
    split at ht'
    · exact h.put_of_bind (fits_table _) ht'
    · exact h.put_of_bind (fits_table _) ht'
    · split at ht'
      · cases ht'
      · exact h.put_of_bind (fun _ => fits_tables _) ht'
    · cases ht'

theorem IsSound.nameTable (h : IsSound t) (ht' : nameTable key t = some t') : IsSound t' := by
  unfold Toml.nameTable at ht'
  split at ht' <;> cases ht'
  · exact h.put key (fits_table _ _)
  · exact h.put key (fits_table _ _)

theorem IsSound.addTable (h : IsSound t) (ht' : addTable key t = some t') : IsSound t' := by
  unfold Toml.addTable at ht'
  split at ht' <;> cases ht'
  · exact h.put key (fits_tables _)
  · exact h.put key (fits_tables _)

theorem IsSound.openTable (h : IsSound t) (ht' : openTable t path = some t') : IsSound t' := by
  unfold Toml.openTable at ht'
  split at ht'
  · cases ht'
  · exact h.descend (fun _ => h.nameTable) ht'

theorem IsSound.appendTable (h : IsSound t) (ht' : appendTable t path = some t') : IsSound t' := by
  unfold Toml.appendTable at ht'
  split at ht'
  · cases ht'
  · exact h.descend (fun _ => h.addTable) ht'

end Tables

/-! ## Documents -/

section Drafts

variable {d d' : Draft} {cs rest : List Char}

theorem isSound_of_headerLine (h : IsSound d.root) (hd' : d.headerLine cs = some (d', rest)) :
    IsSound d'.root := by
  unfold Draft.headerLine at hd'
  split at hd'
  · simp only [Option.bind_eq_bind, Option.bind_eq_some_iff] at hd'
    obtain ⟨_, -, _, -, _, -, _, -, root, hroot, heq⟩ := hd'
    cases heq
    exact h.appendTable hroot
  · simp only [Option.bind_eq_bind, Option.bind_eq_some_iff] at hd'
    obtain ⟨_, -, _, -, _, -, root, hroot, heq⟩ := hd'
    cases heq
    exact h.openTable hroot

theorem isSound_of_keyLine (h : IsSound d.root) (hd' : d.keyLine cs = some (d', rest)) :
    IsSound d'.root := by
  simp only [Draft.keyLine, Option.bind_eq_bind, Option.bind_eq_some_iff] at hd'
  obtain ⟨⟨⟨path, v⟩, rest'⟩, hkey, _, -, root, hroot, heq⟩ := hd'
  cases heq
  simp only [keyValue, Option.bind_eq_bind, Option.bind_eq_some_iff] at hkey
  obtain ⟨_, -, _, -, ⟨w, _⟩, hvalue, heq⟩ := hkey
  cases heq
  exact h.descend (fun _ => h.insertAt (fits_of_value hvalue)) hroot

theorem isSound_of_line (h : IsSound d.root) (hd' : d.line cs = some (d', rest)) :
    IsSound d'.root := by
  unfold Draft.line at hd'
  split at hd'
  · cases hd'
    exact h
  · obtain ⟨_, -, heq⟩ := Option.map_eq_some_iff.mp hd'
    cases heq
    exact h
  · cases hd'
    exact h
  · obtain ⟨_, -, heq⟩ := Option.map_eq_some_iff.mp hd'
    cases heq
    exact h
  · exact isSound_of_headerLine h hd'
  · exact isSound_of_keyLine h hd'

theorem isSound_of_lines {fuel : Nat} (h : IsSound d.root) (hd' : d.lines fuel cs = some d') :
    IsSound d'.root := by
  induction fuel generalizing d cs with
  | zero =>
    cases cs with
    | nil =>
      cases hd'
      exact h
    | cons c cs => cases hd'
  | succ fuel ih =>
    cases cs with
    | nil =>
      cases hd'
      exact h
    | cons c cs =>
      simp only [Draft.lines, Option.bind_eq_bind, Option.bind_eq_some_iff] at hd'
      obtain ⟨⟨d₁, rest⟩, hline, hlines⟩ := hd'
      exact ih (isSound_of_line h hline) hlines

/-- **The table of a document** has each key once, and all of its integers are words. -/
theorem isSound_of_parse {text : List Char} {t : Table} (h : parse text = some t) : IsSound t := by
  obtain ⟨d, hd, rfl⟩ := Option.map_eq_some_iff.mp h
  exact isSound_of_lines isSound_nil hd

end Drafts

/-- What is found under a key is what stands there, wherever it stands. -/
theorem IsSound.lookup_eq_some_iff {t : Table} {key : String} {v : Value} (h : IsSound t) :
    t.lookup key = some v ↔ (key, v) ∈ t := by
  have hnodup := h.nodup
  clear h
  induction t with
  | nil => simp
  | cons entry t ih =>
    obtain ⟨k, w⟩ := entry
    rw [List.map_cons, List.nodup_cons] at hnodup
    rw [List.lookup_cons, List.mem_cons, Prod.mk.injEq]
    by_cases hk : key = k
    · subst hk
      have hnot : (key, v) ∉ t := fun hmem => hnodup.1 (List.mem_map.mpr ⟨_, hmem, rfl⟩)
      simp [hnot, eq_comm]
    · rw [beq_false_of_ne hk]
      simp [hk, ih hnodup.2]

end Toml
end IoWatch
