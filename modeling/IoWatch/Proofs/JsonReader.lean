import IoWatch.Proofs.JsonText

/-!
# Reading JSON text

A reader goes through a text one character at a time. It keeps the names of the members that it is
inside of, and all numbers that it has found behind them. A number has no end of its own: it ends
where the first character stands that no number is written with. That is a comma or a brace, so what
was written as a value is read with the same names and the same texts of numbers.

## Main definitions

* `Json.Leaf`, `Json.leaves`: the numbers in a value, as text and with the names that lead to them
* `Json.IsPlain`: no name in a value has a quote in it
* `Json.Reader`, `Json.Reader.step`, `Json.Reader.run`: the state of a reader, and what it does with
  a character and with a text
* `Json.leaves?`: the numbers in a text

## Main results

* `Json.Reader.run_render`: a value is read wherever it stands
* `Json.leaves?_render`: the text of a value has the leaves of the value
-/

namespace IoWatch

namespace Json

/-- The text of a number, and the names of the members that it stands in, the innermost first. -/
structure Leaf where
  path : List String
  text : List Char
  deriving DecidableEq

mutual

/-- The numbers in a value, in order, below the members of some names. -/
def leaves : Json → List String → List Leaf
  | int i, path => [⟨path, integerText i⟩]
  | number x, path => [⟨path, numberText x⟩]
  | object members, path => leavesAll members path

/-- The numbers in the members of an object. -/
def leavesAll : List (String × Json) → List String → List Leaf
  | [], _ => []
  | (name, value) :: members, path => leaves value (name :: path) ++ leavesAll members path

end

/-- No name in a value has a quote in it, where it would end. -/
inductive IsPlain : Json → Prop where
  | int (i : Int) : IsPlain (.int i)
  | number (x : Binary64) : IsPlain (.number x)
  | object {members : List (String × Json)} (hnames : ∀ m ∈ members, '"' ∉ m.1.toList)
      (hvalues : ∀ m ∈ members, IsPlain m.2) : IsPlain (.object members)

/-! ## The reader -/

/-- Where a reader is. -/
inductive Place where
  /-- A value starts here. -/
  | value
  /-- A member of an object starts here, or the object ends before its first one. -/
  | member (first : Bool)
  /-- Inside a name, behind some characters of it. -/
  | name (cs : List Char)
  /-- Behind a name. -/
  | colon (name : String)
  /-- Inside a number, behind some characters of it. -/
  | number (cs : List Char)
  /-- Behind an object. -/
  | behind
  deriving DecidableEq

/-- A reader of JSON text. -/
structure Reader where
  place : Place
  /-- The names of the members that it is inside of, the innermost first. -/
  path : List String
  /-- What it has found. -/
  found : List Leaf
  deriving DecidableEq

namespace Reader

/-- In front of a text. -/
def start : Reader := ⟨.value, [], []⟩

/-- The reader behind a number, if it was inside one. -/
def settled (r : Reader) : Reader :=
  match r.place with
  | .number cs => ⟨.behind, r.path, r.found ++ [⟨r.path, cs⟩]⟩
  | _ => r

/-- The reader after a character that ends a member: another one follows, or the object ends. -/
def close (r : Reader) (c : Char) : Option Reader :=
  match r.path with
  | [] => none
  | _ :: path =>
    if c = ',' then some ⟨.member false, path, r.found⟩
    else if c = '\x7d' then some ⟨.behind, path, r.found⟩
    else none

/-- The reader after a character. -/
def step (r : Reader) (c : Char) : Option Reader :=
  match r.place with
  | .value =>
    if c = '\x7b' then some { r with place := .member true }
    else if isNumberChar c then some { r with place := .number [c] }
    else none
  | .member first =>
    if c = '"' then some { r with place := .name [] }
    else if first ∧ c = '\x7d' then some { r with place := .behind }
    else none
  | .name cs =>
    if c = '"' then some { r with place := .colon (String.ofList cs) }
    else some { r with place := .name (cs ++ [c]) }
  | .colon name =>
    if c = ':' then some { r with place := .value, path := name :: r.path } else none
  | .number cs =>
    if isNumberChar c then some { r with place := .number (cs ++ [c]) } else r.settled.close c
  | .behind => r.close c

/-- The reader after a text. -/
def run (r : Reader) : List Char → Option Reader
  | [] => some r
  | c :: cs => (r.step c).bind (·.run cs)

end Reader

/-- The numbers in the text of one value. -/
def leaves? (cs : List Char) : Option (List Leaf) :=
  match (Reader.start.run cs).map Reader.settled with
  | some ⟨.behind, [], found⟩ => some found
  | _ => none

/-! ## Reading what was written -/

theorem integerText_ne_nil (i : Int) : integerText i ≠ [] :=
  List.append_ne_nil_of_right_ne_nil _ Nat.toDigits_ne_nil

theorem text_ne_nil (d : Decimal) (layout : Decimal.Layout) : d.text layout ≠ [] := by
  unfold Decimal.text
  dsimp only
  repeat' split
  all_goals simp [Nat.toDigits_ne_nil]

theorem numberText_ne_nil (x : Binary64) : numberText x ≠ [] := by
  unfold numberText
  split
  · exact List.append_ne_nil_of_right_ne_nil _ (text_ne_nil _ _)
  · exact List.cons_ne_nil _ _

namespace Reader

variable {r r' : Reader} {path : List String} {found : List Leaf}

theorem run_of_step {c : Char} (h : r.step c = some r') (cs : List Char) :
    r.run (c :: cs) = r'.run cs := by
  rw [run, h]
  rfl

theorem run_append (r : Reader) (cs ds : List Char) :
    r.run (cs ++ ds) = (r.run cs).bind (·.run ds) := by
  induction cs generalizing r with
  | nil => rfl
  | cons c cs ih =>
    rw [List.cons_append, run, run, Option.bind_assoc]
    exact congrArg _ (funext fun r => ih r)

theorem run_of_run {cs : List Char} (h : r.run cs = some r') (ds : List Char) :
    r.run (cs ++ ds) = r'.run ds := by
  rw [run_append, h]
  rfl

/-- Behind a value, a character that no number is written with ends the member. -/
theorem step_of_settled (hr : r.settled = ⟨.behind, path, found⟩) {c : Char}
    (hc : isNumberChar c = false) : r.step c = close ⟨.behind, path, found⟩ c := by
  obtain ⟨place, path', found'⟩ := r
  cases place with
  | number cs =>
    rw [← hr]
    exact if_neg (Bool.eq_false_iff.mp hc)
  | behind =>
    rw [← hr]
    rfl
  | value | member | name | colon => cases congrArg Reader.place hr

/-- Characters that a name or a number goes on with are collected. -/
theorem run_collect {place : List Char → Place} {p : Char → Prop}
    (hstep : ∀ cs c, p c →
      step ⟨place cs, path, found⟩ c = some ⟨place (cs ++ [c]), path, found⟩)
    {ds : List Char} (h : ∀ d ∈ ds, p d) (cs : List Char) :
    run ⟨place cs, path, found⟩ ds = some ⟨place (cs ++ ds), path, found⟩ := by
  induction ds generalizing cs with
  | nil => rw [run, List.append_nil]
  | cons d ds ih =>
    obtain ⟨hd, hds⟩ := List.forall_mem_cons.mp h
    rw [run_of_step (hstep cs d hd), ih hds, List.append_assoc, List.singleton_append]

/-- A name goes on up to the quote. -/
theorem run_name {ds : List Char} (h : '"' ∉ ds) :
    run ⟨.name [], path, found⟩ ds = some ⟨.name ds, path, found⟩ := by
  apply run_collect (p := (· ≠ '"'))
  · intro cs c hc
    exact if_neg hc
  · rintro d hd rfl
    exact h hd

/-- Behind a member's name and the colon its value starts. -/
theorem run_nameText {name : String} (h : '"' ∉ name.toList) (first : Bool) :
    run ⟨.member first, path, found⟩ (nameText name) = some ⟨.value, name :: path, found⟩ := by
  have hquote : step ⟨.member first, path, found⟩ '"' = some ⟨.name [], path, found⟩ := rfl
  rw [nameText, run_of_step hquote, run_of_run (run_name h)]
  show some (Reader.mk .value (String.ofList name.toList :: path) found) = _
  rw [String.ofList_toList]

/-- All characters of a number belong to it. -/
theorem run_numberText {cs : List Char} (hne : cs ≠ []) (h : ∀ c ∈ cs, isNumberChar c = true)
    (path : List String) (found : List Leaf) :
    run ⟨.value, path, found⟩ cs = some ⟨.number cs, path, found⟩ := by
  obtain ⟨c, cs, rfl⟩ := List.exists_cons_of_ne_nil hne
  rw [List.forall_mem_cons] at h
  have hbrace : c ≠ '\x7b' := by
    rintro rfl
    exact absurd h.1 (by decide)
  have hstep : step ⟨.value, path, found⟩ c = some ⟨.number [c], path, found⟩ := by
    rw [step, if_neg hbrace, if_pos h.1]
  rw [run_of_step hstep]
  apply run_collect _ h.2
  intro cs c hc
  exact if_pos hc

/-- A value is read wherever it stands: its leaves are found below the names that lead to it, and
the members that it stands in are still open. Only a number may still go on. -/
def Reads (j : Json) : Prop :=
  ∀ path found, ∃ r, run ⟨.value, path, found⟩ j.render = some r ∧
    r.settled = ⟨.behind, path, found ++ j.leaves path⟩

/-- A member is read from its name on. -/
theorem run_member {name : String} {value : Json} (hname : '"' ∉ name.toList) (hvalue : Reads value)
    (first : Bool) (path : List String) (found : List Leaf) :
    ∃ r, run ⟨.member first, path, found⟩ (nameText name ++ value.render) = some r ∧
      r.settled = ⟨.behind, name :: path, found ++ value.leaves (name :: path)⟩ := by
  rw [run_of_run (run_nameText hname first)]
  exact hvalue (name :: path) found

/-- The members behind the first one are read up to the end of their object. Each comma leaves the
member of before, and the next one has its value read in its place. -/
theorem run_renderRest {members : List (String × Json)} (hnames : ∀ m ∈ members, '"' ∉ m.1.toList)
    (hvalues : ∀ m ∈ members, Reads m.2) {name : String}
    (hr : r.settled = ⟨.behind, name :: path, found⟩) :
    r.run (renderRest members) = some ⟨.behind, path, found ++ leavesAll members path⟩ := by
  induction members generalizing r name found with
  | nil =>
    have hstep : r.step '\x7d' = some ⟨.behind, path, found⟩ := step_of_settled hr (by decide)
    rw [renderRest, run_of_step hstep, run, leavesAll, List.append_nil]
  | cons m members ih =>
    obtain ⟨name', value⟩ := m
    obtain ⟨hname, hnames⟩ := List.forall_mem_cons.mp hnames
    obtain ⟨hvalue, hvalues⟩ := List.forall_mem_cons.mp hvalues
    have hstep : r.step ',' = some ⟨.member false, path, found⟩ := step_of_settled hr (by decide)
    obtain ⟨r', hmember, hr'⟩ := run_member hname hvalue false path found
    rw [renderRest, run_of_step hstep, run_of_run hmember, ih hnames hvalues hr', leavesAll,
      List.append_assoc]

/-- A value of plain names is read wherever it stands. -/
theorem run_render {j : Json} (h : IsPlain j) : Reads j := by
  induction h with
  | int i =>
    intro path found
    rw [render, run_numberText (integerText_ne_nil i) fun c => isNumberChar_of_mem_integerText]
    exact ⟨_, rfl, rfl⟩
  | number x =>
    intro path found
    rw [render, run_numberText (numberText_ne_nil x) (isNumberChar_of_mem_numberText x)]
    exact ⟨_, rfl, rfl⟩
  | @object members hnames _ ih =>
    intro path found
    have hstep : step ⟨.value, path, found⟩ '\x7b' = some ⟨.member true, path, found⟩ := rfl
    cases members with
    | nil => exact ⟨⟨.behind, path, found⟩, rfl, by rw [leaves, leavesAll, List.append_nil]; rfl⟩
    | cons m members =>
      obtain ⟨name, value⟩ := m
      obtain ⟨hname, hnames⟩ := List.forall_mem_cons.mp hnames
      obtain ⟨hvalue, hvalues⟩ := List.forall_mem_cons.mp ih
      obtain ⟨r, hmember, hr⟩ := run_member hname hvalue true path found
      rw [render, run_of_step hstep, run_of_run hmember, run_renderRest hnames hvalues hr, leaves,
        leavesAll, ← List.append_assoc]
      exact ⟨_, rfl, rfl⟩

end Reader

/-- **The text of a value has the leaves of the value.** -/
theorem leaves?_render {j : Json} (h : IsPlain j) : leaves? j.render = some (j.leaves []) := by
  obtain ⟨r, hrun, hr⟩ := Reader.run_render h [] []
  rw [leaves?, Reader.start, hrun, Option.map_some, hr, List.nil_append]

end Json

end IoWatch
