import IoWatch.Usage

/-!
# The text of a snapshot is one line

The text of a number is made of few characters, and the names of a snapshot's members are plain. So
no line feed stands in the text of a snapshot.

## Main definitions

* `Json.isNumberChar`: the characters that numbers are written with

## Main results

* `forall_mem_integerText`, `forall_mem_text`: what holds of all characters of a number
* `isNumberChar_of_mem_integerText`, `isNumberChar_of_mem_numberText`: numbers are written with them
* `Snapshot.newline_notMem_line`: the text of a snapshot has no line feed in it
-/

namespace IoWatch

namespace Json

/-- The characters of the text of a number; those of `null` stand for what is no number. -/
def isNumberChar (c : Char) : Bool := c.isDigit || ['-', '+', '.', 'e', 'n', 'u', 'l'].contains c

theorem isNumberChar_of_isDigit {c : Char} (h : c.isDigit = true) : isNumberChar c = true := by
  simp [isNumberChar, h]

/-- What holds of all digits and of the minus sign holds of the text of an integer. -/
theorem forall_mem_integerText {p : Char → Prop} (hdigit : ∀ c, c.isDigit = true → p c)
    (hminus : p '-') (i : Int) : ∀ c ∈ integerText i, p c := by
  intro c hc
  rcases List.mem_append.mp hc with hsign | hdigits
  · split at hsign
    · obtain rfl := List.mem_singleton.mp hsign
      exact hminus
    · cases hsign
  · exact hdigit c (Nat.isDigit_of_mem_toDigits (by decide) (by decide) hdigits)

theorem isNumberChar_of_mem_integerText {i : Int} {c : Char} (h : c ∈ integerText i) :
    isNumberChar c = true :=
  forall_mem_integerText (fun _ => isNumberChar_of_isDigit) (by decide) i c h

/-- What holds of all digits, of the point, the letter and the sign of an exponent, and of the
characters of a layout holds of the text of a decimal. The cases are those of the layout: zero, a
scientific form, a whole number, and the two forms with a point inside or in front. -/
theorem forall_mem_text {p : Char → Prop} (hdigit : ∀ c, c.isDigit = true → p c) (hpoint : p '.')
    (hletter : p 'e') (hminus : p '-') (d : Decimal) {layout : Decimal.Layout}
    (hplus : ∀ c ∈ layout.exponentPlus, p c) (hwhole : ∀ c ∈ layout.wholeMark, p c) :
    ∀ c ∈ d.text layout, p c := by
  have hdigits : ∀ n, ∀ c ∈ Nat.toDigits 10 n, p c := fun n c hc =>
    hdigit c (Nat.isDigit_of_mem_toDigits (by decide) (by decide) hc)
  have htake : ∀ k n, ∀ c ∈ (Nat.toDigits 10 n).take k, p c :=
    fun k n c hc => hdigits n c (List.mem_of_mem_take hc)
  have hdrop : ∀ k n, ∀ c ∈ (Nat.toDigits 10 n).drop k, p c :=
    fun k n c hc => hdigits n c (List.mem_of_mem_drop hc)
  have hzero : p '0' := hdigit '0' (by decide)
  have hzeros : ∀ k, ∀ c ∈ List.replicate k '0', p c := by
    intro k c hc
    obtain rfl := List.eq_of_mem_replicate hc
    exact hzero
  unfold Decimal.text
  dsimp only
  split
  · exact List.forall_mem_cons.mpr ⟨hzero, hwhole⟩
  split
  · refine List.forall_mem_append.mpr ⟨List.forall_mem_append.mpr ⟨htake 1 _, ?_⟩, ?_⟩
    · split
      · simp
      · exact List.forall_mem_cons.mpr ⟨hpoint, hdrop 1 _⟩
    · refine List.forall_mem_cons.mpr ⟨hletter, List.forall_mem_append.mpr ⟨?_, hdigits _⟩⟩
      split
      · exact List.forall_mem_singleton.mpr hminus
      · exact hplus
  split
  · exact List.forall_mem_append.mpr
      ⟨List.forall_mem_append.mpr ⟨hdigits _, hzeros _⟩, hwhole⟩
  split
  · exact List.forall_mem_append.mpr ⟨htake _ _, List.forall_mem_cons.mpr ⟨hpoint, hdrop _ _⟩⟩
  · refine List.forall_mem_cons.mpr ⟨hzero, List.forall_mem_cons.mpr ⟨hpoint, ?_⟩⟩
    exact List.forall_mem_append.mpr ⟨hzeros _, hdigits _⟩

theorem isNumberChar_of_mem_numberText (x : Binary64) :
    ∀ c ∈ numberText x, isNumberChar c = true := by
  unfold numberText
  split
  · intro c hc
    rcases List.mem_append.mp hc with hsign | htext
    · split at hsign
      · obtain rfl := List.mem_singleton.mp hsign
        decide
      · cases hsign
    · exact forall_mem_text (fun _ => isNumberChar_of_isDigit) (by decide) (by decide) (by decide)
        _ (List.all_eq_true.mp rfl) (List.all_eq_true.mp rfl) c htext
  · exact List.all_eq_true.mp rfl

theorem newline_ne_of_isNumberChar {c : Char} (h : isNumberChar c = true) : '\n' ≠ c := by
  rintro rfl
  revert h
  decide

@[simp] theorem newline_notMem_integerText (i : Int) : '\n' ∉ integerText i := fun h =>
  newline_ne_of_isNumberChar (isNumberChar_of_mem_integerText h) rfl

@[simp] theorem newline_notMem_numberText (x : Binary64) : '\n' ∉ numberText x := fun h =>
  newline_ne_of_isNumberChar (isNumberChar_of_mem_numberText x _ h) rfl

end Json

@[simp] theorem Sample.newline_notMem_render (s : Sample) : '\n' ∉ s.toJson.render := by
  simp [toJson, Json.render, Json.renderRest, Json.nameText]

@[simp] theorem Window.newline_notMem_render (w : Window) : '\n' ∉ w.toJson.render := by
  simp [toJson, Json.render, Json.renderRest, Json.nameText]

@[simp] theorem Rates.newline_notMem_render (r : Rates) : '\n' ∉ r.toJson.render := by
  simp [toJson, Json.render, Json.renderRest, Json.nameText]

theorem Snapshot.newline_notMem_line (s : Snapshot) : '\n' ∉ s.line := by
  simp [line, toJson, Json.render, Json.renderRest, Json.nameText]

end IoWatch
