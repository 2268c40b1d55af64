import IoWatch.Decimal.Fixed
import IoWatch.Decimal.Numeral
import IoWatch.Proofs.Magnitudes
import IoWatch.Proofs.TextForms
import Mathlib.Algebra.Field.Rat
import Mathlib.Tactic.Ring

/-!
# Numbers in texts

A number with a fixed number of places is a numeral: digits with a point before the last of them,
behind a sign if there is one. So it denotes a decimal, and that is the number of places times as
many digits, with the sign, as were written. An amount is such a numeral, a blank and the name of a
unit.

## Main definitions

* `number?`: the rational number that a numeral denotes
* `PlacesText`: a text is a number with some places
* `readAmount?`: the number and the unit of an amount, the unit by its place among some names

## Main results

* `DigitText.append`: digits behind digits
* `numeral?_pointed`: a numeral with a point is read
* `PlacesText.number?_eq`, `placesText_fixed`: a number with some places is read, and the text of a
  number is one
* `readAmount?_append`: a number in front of a unit
-/

namespace IoWatch

/-- The rational number that a numeral denotes. -/
def number? (cs : List Char) : Option ℚ :=
  (numeral? cs).map fun (negative, d) => signed negative d.digits * (10 : ℚ) ^ d.exponent

/-- The number of an amount, and the place of its unit among some names. -/
def readAmount? (names : List (List Char)) (cs : List Char) : Option (ℚ × ℕ) := do
  let (number, name) ← splitAtFirst ' ' cs
  let value ← number? number
  let k ← names.idxOf? name
  return (value, k)

/-! ## Digits -/

variable {ds es : List Char} {n m : Nat}

/-- Digits behind digits denote the sum, the first ones moved up by the number of the others. -/
theorem DigitText.append (hds : DigitText ds n) (hes : DigitText es m) :
    DigitText (ds ++ es) (n * Nat.pow 10 es.length + m) := by
  induction hes with
  | @one d hd =>
    have h := hds.more hd
    rwa [Nat.mul_comm] at h
  | @more es m d _ hd ih =>
    have h := ih.more hd
    have hplace : 10 * (n * Nat.pow 10 es.length + m) + d =
        n * Nat.pow 10 (es ++ [Nat.digitChar d]).length + (10 * m + d) := by
      rw [List.length_append, List.length_singleton, Nat.pow_eq, Nat.pow_eq, Nat.pow_succ]
      ring
    rwa [hplace, List.append_assoc] at h

/-- Zeros in front of digits do not count. -/
theorem DigitText.padded (h : DigitText ds n) (width : Nat) : DigitText (padded width ds) n := by
  unfold IoWatch.padded
  induction width - ds.length with
  | zero => exact h
  | succ zeros ih =>
    have hzero : DigitText [Nat.digitChar 0] 0 := .one (by decide)
    have hcons := hzero.append ih
    rwa [Nat.zero_mul, Nat.zero_add] at hcons

theorem length_padded_toDigits {width : Nat} (hwidth : 0 < width) (hn : n < Nat.pow 10 width) :
    (padded width (Nat.toDigits 10 n)).length = width := by
  have hle := (Nat.length_toDigits_le_iff (by decide) hwidth).mpr hn
  rw [padded, List.length_append, List.length_replicate, Nat.sub_add_cancel hle]

/-- The digits of a text end where another character follows. -/
theorem DigitText.takeWhile_append (h : DigitText ds n) (rest : List Char)
    (hrest : ∀ c ∈ rest.head?, c.isDigit = false) :
    (ds ++ rest).takeWhile Char.isDigit = ds ∧ (ds ++ rest).dropWhile Char.isDigit = rest := by
  rw [List.takeWhile_append_of_pos h.isDigit, List.dropWhile_append_of_pos h.isDigit]
  cases rest with
  | nil => exact ⟨List.append_nil ds, rfl⟩
  | cons c rest =>
    have hc : ¬ c.isDigit = true := by simp [hrest c rfl]
    rw [List.takeWhile_cons_of_neg hc, List.dropWhile_cons_of_neg hc, List.append_nil]
    exact ⟨rfl, rfl⟩

/-! ## Numerals -/

/-- The minus sign of a negative number. -/
def minus (negative : Bool) : List Char := if negative then ['-'] else []

theorem DigitText.signSplit_minus_append (h : DigitText ds n) (negative : Bool)
    (rest : List Char) : signSplit (minus negative ++ (ds ++ rest)) = (negative, ds ++ rest) := by
  cases negative with
  | true => rfl
  | false => exact h.signSplit_append rest

theorem numeral?_digits (h : DigitText ds n) (negative : Bool) :
    numeral? (minus negative ++ ds) = some (negative, ⟨n, 0⟩) := by
  have hsign := h.signSplit_minus_append negative []
  obtain ⟨htake, hdrop⟩ := h.takeWhile_append [] (by simp)
  rw [List.append_nil] at hsign htake hdrop
  simp [numeral?, hsign, htake, hdrop, digits?_eq_some_iff.mpr h, exponent?]

theorem numeral?_pointed (hds : DigitText ds n) (hes : DigitText es m) (negative : Bool) :
    numeral? (minus negative ++ (ds ++ '.' :: es)) =
      some (negative, ⟨n * Nat.pow 10 es.length + m, -es.length⟩) := by
  have hsign := hds.signSplit_minus_append negative ('.' :: es)
  obtain ⟨htake, hdrop⟩ := hds.takeWhile_append ('.' :: es) (by simp)
  obtain ⟨htake', hdrop'⟩ := hes.takeWhile_append [] (by simp)
  rw [List.append_nil] at htake' hdrop'
  simp [numeral?, hsign, htake, hdrop, htake', hdrop', digits?_eq_some_iff.mpr (hds.append hes),
    exponent?]

theorem number?_toDigits (n : Nat) : number? (Nat.toDigits 10 n) = some (n : ℚ) := by
  have h := numeral?_digits (digitText_toDigits n) false
  rw [minus, if_neg (by decide), List.nil_append] at h
  simp [number?, h, signed]

/-- A text is a number with some places: digits, a point and as many digits as there are places,
behind a sign if the number is negative. -/
inductive PlacesText (places : Nat) : List Char → ℚ → Prop
  | intro {ds es : List Char} {n m : Nat} (negative : Bool) (hds : DigitText ds n)
      (hes : DigitText es m) (hlength : es.length = places) :
      PlacesText places (minus negative ++ (ds ++ '.' :: es))
        (signed negative (n * Nat.pow 10 places + m) / (10 : ℚ) ^ places)

/-- A number with some places is read. -/
theorem PlacesText.number?_eq {places : Nat} {cs : List Char} {value : ℚ}
    (h : PlacesText places cs value) : number? cs = some value := by
  obtain ⟨negative, hds, hes, rfl⟩ := h
  rw [number?, numeral?_pointed hds hes negative, Option.map_some]
  simp [div_eq_mul_inv]

/-- The last digits of a natural number stand behind the point. -/
theorem placesText_pointed {places : Nat} (hplaces : 0 < places) (negative : Bool) (n : Nat) :
    PlacesText places (minus negative ++ pointed n places)
      (signed negative n / (10 : ℚ) ^ places) := by
  have hlt : n % Nat.pow 10 places < Nat.pow 10 places := Nat.mod_lt n (Nat.pow_pos (by decide))
  have h := PlacesText.intro negative (digitText_toDigits (n / Nat.pow 10 places))
    ((digitText_toDigits (n % Nat.pow 10 places)).padded places)
    (length_padded_toDigits hplaces hlt)
  rwa [Nat.div_add_mod'] at h

theorem placesText_fixed {x : Binary64} (hx : x.IsFinite) {places : Nat} (hplaces : 0 < places) :
    PlacesText places (x.fixed places)
      (signed x.isNegative (x.scaled places) / (10 : ℚ) ^ places) := by
  obtain ⟨s, m, e, c, rfl⟩ := hx
  exact placesText_pointed hplaces s _

/-! ## Amounts -/

theorem not_mem_pointed {c : Char} (hc : c.isDigit = false) (hpoint : c ≠ '.')
    (n places : Nat) : c ∉ pointed n places := by
  rw [pointed, List.mem_append, List.mem_cons]
  rintro (hmem | rfl | hmem)
  · exact (digitText_toDigits _).not_mem hc hmem
  · exact hpoint rfl
  · exact ((digitText_toDigits _).padded places).not_mem hc hmem

/-- There is no blank in the text of a number. -/
theorem blank_not_mem_fixed {x : Binary64} (hx : x.IsFinite) (places : Nat) :
    ' ' ∉ x.fixed places := by
  obtain ⟨s, m, e, c, rfl⟩ := hx
  have hpointed := not_mem_pointed (c := ' ') (by decide) (by decide)
  rw [Binary64.fixed, List.mem_append]
  rintro (hmem | hmem)
  · cases s <;> simp [Binary64.isNegative] at hmem
  · exact hpointed _ _ hmem

/-- A number in front of a unit is read. -/
theorem readAmount?_append {names : List (List Char)} {cs name : List Char} {value : ℚ} {k : ℕ}
    (hblank : ' ' ∉ cs) (hvalue : number? cs = some value) (hname : names.idxOf? name = some k) :
    readAmount? names (cs ++ ' ' :: name) = some (value, k) := by
  simp [readAmount?, splitAtFirst_append hblank, hvalue, hname]

end IoWatch
