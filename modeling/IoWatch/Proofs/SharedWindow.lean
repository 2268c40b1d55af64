import IoWatch.Sample
import Mathlib.Data.List.Induction
import Mathlib.Logic.Function.Basic
import Mathlib.Logic.Relation

/-!
# A window shared among threads

Any number of threads update a window and look at it. The window is not edited in place: an update
loads the one that is installed, computes the next one from it and installs that, unless another
window has been installed since it loaded; then it starts over. Threads can meet between any two of
these steps.

Calls are counted in the order in which they are made. What has been called, installed and returned
is recorded, and no step looks at the record.

## Main definitions

* `Cell`: the window that is installed
* `Request`, `Reply`, `Point`: what threads ask for, what they get, and how far a call has come
* `Move`: how a call goes on
* `Config`, `Step`, `Reachable`: a window with all its threads, and what can become of it
* `Config.chain`, `Config.installsOf`: the windows that were ever installed, and those of one call

## Main results

* `Move.exists_outcome`: no call waits for another
* `exists_reachable_advanceAll`: one thread makes of the window what a list of samples does
-/

namespace IoWatch

namespace SharedWindow

open Function (update)

/-! ## Calls -/

/-- A window that is installed. Each installation has a stamp of its own, by which it is told from
an earlier one of the same window. -/
structure Cell where
  stamp : Nat
  window : Window
  deriving DecidableEq

/-- What a thread asks for. -/
inductive Request where
  /-- That a sample is taken into the window. -/
  | update (x : Sample)
  | look
  deriving DecidableEq

/-- What a call returns. -/
inductive Reply where
  | done
  | saw (w : Window)
  deriving DecidableEq

/-- The point that a call has come to. -/
inductive Point where
  | called (r : Request)
  /-- It is going to load the window. -/
  | loading (x : Sample)
  | loaded (x : Sample) (seen : Cell)
  /-- It has computed the next window from the one it has seen. -/
  | computed (x : Sample) (seen : Cell) (next : Window)
  /-- It has installed a window, and is going to return. -/
  | installed (x : Sample)
  /-- It has loaded the window, and is going to return it. -/
  | looked (w : Window)
  deriving DecidableEq

/-- What a call at a point was made for. -/
def Point.request : Point → Request
  | called r => r
  | loading x | loaded x _ | computed x _ _ | installed x => .update x
  | looked _ => .look

/-- What comes of a move. -/
inductive Outcome where
  /-- The call has come to another point. -/
  | goes (p : Point)
  /-- It has also installed a window. -/
  | installs (next : Window) (p : Point)
  | returns (reply : Reply)

/-- How a call goes on, given what is installed. -/
inductive Move (cell : Cell) : Point → Outcome → Prop
  /-- An unreadable sample is dropped. -/
  | drop (x : Sample) (hx : x.isUnreadable = true) :
      Move cell (.called (.update x)) (.returns .done)
  | start (x : Sample) (hx : x.isUnreadable = false) :
      Move cell (.called (.update x)) (.goes (.loading x))
  | load (x : Sample) : Move cell (.loading x) (.goes (.loaded x cell))
  | compute (x : Sample) (seen : Cell) :
      Move cell (.loaded x seen) (.goes (.computed x seen (seen.window.advance x)))
  /-- What was loaded is still installed. -/
  | install (x : Sample) (seen : Cell) (next : Window) (h : seen.stamp = cell.stamp) :
      Move cell (.computed x seen next) (.installs next (.installed x))
  /-- Something else has been installed since. -/
  | retry (x : Sample) (seen : Cell) (next : Window) (h : seen.stamp ≠ cell.stamp) :
      Move cell (.computed x seen next) (.goes (.loading x))
  | finish (x : Sample) : Move cell (.installed x) (.returns .done)
  | see : Move cell (.called .look) (.goes (.looked cell.window))
  | tell (w : Window) : Move cell (.looked w) (.returns (.saw w))

/-- No call waits for another: each can go on from whatever point it has come to. -/
theorem Move.exists_outcome (cell : Cell) (p : Point) : ∃ outcome, Move cell p outcome := by
  cases p with
  | called r =>
    cases r with
    | look => exact ⟨_, .see⟩
    | update x =>
      cases hx : x.isUnreadable with
      | true => exact ⟨_, .drop x hx⟩
      | false => exact ⟨_, .start x hx⟩
  | loading x => exact ⟨_, .load x⟩
  | loaded x seen => exact ⟨_, .compute x seen⟩
  | computed x seen next =>
    by_cases h : seen.stamp = cell.stamp
    · exact ⟨_, .install x seen next h⟩
    · exact ⟨_, .retry x seen next h⟩
  | installed x => exact ⟨_, .finish x⟩
  | looked w => exact ⟨_, .tell w⟩

/-! ## Threads -/

/-- A window, the threads that share it, and the record of what has happened. -/
structure Config (ι : Type) where
  cell : Cell
  /-- The call that a thread is in, and its point. -/
  point : ι → Option (Nat × Point)
  /-- The calls that were made. -/
  called : List (ι × Request)
  /-- The windows that were installed, each with the call that did it. -/
  installed : List (Nat × Window)
  /-- The calls that have returned. -/
  returned : List (Nat × Reply)

/-- A new window. -/
def Config.create (ι : Type) : Config ι := ⟨⟨0, .initial⟩, fun _ => none, [], [], []⟩

section Steps

variable {ι : Type} [DecidableEq ι]

/-- All that can happen. -/
inductive Step (c : Config ι) : Config ι → Prop
  /-- A thread that is in no call makes one. -/
  | begins (i : ι) (r : Request) (h : c.point i = none) : Step c { c with
      point := update c.point i (some (c.called.length, .called r))
      called := c.called ++ [(i, r)] }
  /-- A thread goes on with its call. -/
  | goes (i : ι) {n : Nat} {p p' : Point} (h : c.point i = some (n, p))
      (hm : Move c.cell p (.goes p')) : Step c { c with
      point := update c.point i (some (n, p')) }
  | installs (i : ι) {n : Nat} {p p' : Point} {next : Window} (h : c.point i = some (n, p))
      (hm : Move c.cell p (.installs next p')) : Step c { c with
      cell := ⟨c.cell.stamp + 1, next⟩
      point := update c.point i (some (n, p'))
      installed := c.installed ++ [(n, next)] }
  | returns (i : ι) {n : Nat} {p : Point} {reply : Reply} (h : c.point i = some (n, p))
      (hm : Move c.cell p (.returns reply)) : Step c { c with
      point := update c.point i none
      returned := c.returned ++ [(n, reply)] }

/-- What can become of a new window. -/
def Reachable : Config ι → Prop := Relation.ReflTransGen Step (.create ι)

end Steps

variable {ι : Type}

namespace Config

/-- The windows that were ever installed, in order. The first one has been there from the start. -/
def chain (c : Config ι) : List Window := .initial :: c.installed.map Prod.snd

/-- The windows that a call has installed. -/
def installsOf (c : Config ι) (n : Nat) : List Window :=
  (c.installed.filter fun install => install.1 == n).map Prod.snd

end Config

/-! ## An update that nobody disturbs -/

section Alone

variable [DecidableEq ι] (c : Config ι) (i : ι)

/-- A window whose threads are as they were, but for one of them. -/
def Config.put (call : Option (Nat × Point)) : Config ι :=
  { c with point := update c.point i call }

variable {c i} {n : Nat} {p p' : Point}

theorem Config.put_put (call call' : Option (Nat × Point)) :
    (c.put i call).put i call' = c.put i call' := by
  simp only [put, Function.update_idem]

theorem Step.goes_put (hm : Move c.cell p (.goes p')) :
    Step (c.put i (some (n, p))) (c.put i (some (n, p'))) := by
  rw [← Config.put_put (some (n, p)) (some (n, p'))]
  exact .goes i (Function.update_self ..) hm

theorem Step.installs_put {next : Window} (hm : Move c.cell p (.installs next p')) :
    Step (c.put i (some (n, p))) (Config.put
      { c with cell := ⟨c.cell.stamp + 1, next⟩, installed := c.installed ++ [(n, next)] }
      i (some (n, p'))) := by
  have h := Step.installs (c := c.put i (some (n, p))) i (Function.update_self ..) hm
  rwa [Config.put, Function.update_idem] at h

theorem Step.returns_put {reply : Reply} (hm : Move c.cell p (.returns reply)) :
    Step (c.put i (some (n, p)))
      (Config.put { c with returned := c.returned ++ [(n, reply)] } i none) := by
  have h := Step.returns (c := c.put i (some (n, p))) i (Function.update_self ..) hm
  rwa [Config.put, Function.update_idem] at h

/-- A thread that nobody disturbs takes its sample into the window. -/
theorem exists_steps_update (c : Config ι) (hi : c.point i = none) (x : Sample) :
    ∃ c', Relation.ReflTransGen Step c c' ∧ c'.point = c.point ∧
      c'.cell.window = c.cell.window.advance x := by
  let d : Config ι := { c with called := c.called ++ [(i, .update x)] }
  have hcall : Step c (d.put i (some (c.called.length, .called (.update x)))) :=
    .begins i (.update x) hi
  have hpoint : update c.point i none = c.point := by rw [← hi, Function.update_eq_self]
  cases hx : x.isUnreadable with
  | true =>
    have hreturn := Step.returns_put (c := d) (i := i) (n := c.called.length) (.drop x hx)
    exact ⟨_, .tail (.single hcall) hreturn, hpoint, (Window.advance_of_unreadable hx _).symm⟩
  | false =>
    let e : Config ι := { d with
      cell := ⟨d.cell.stamp + 1, d.cell.window.advance x⟩
      installed := d.installed ++ [(c.called.length, d.cell.window.advance x)] }
    have hstart := Step.goes_put (c := d) (i := i) (n := c.called.length) (.start x hx)
    have hload := Step.goes_put (c := d) (i := i) (n := c.called.length) (.load x)
    have hcompute := Step.goes_put (c := d) (i := i) (n := c.called.length) (.compute x d.cell)
    have hinstall := Step.installs_put (c := d) (i := i) (n := c.called.length)
      (.install x d.cell (d.cell.window.advance x) rfl)
    have hreturn := Step.returns_put (c := e) (i := i) (n := c.called.length) (.finish x)
    have hsteps := (((Relation.ReflTransGen.single hcall).tail hstart).tail hload).tail hcompute
    exact ⟨_, (hsteps.tail hinstall).tail hreturn, hpoint, rfl⟩

/-- Updates of one thread make of the window what they make of a list of samples. -/
theorem exists_reachable_advanceAll (i : ι) (samples : List Sample) :
    ∃ c : Config ι, Reachable c ∧ c.point i = none ∧
      c.cell.window = Window.initial.advanceAll samples := by
  induction samples using List.reverseRecOn with
  | nil => exact ⟨.create ι, .refl, rfl, rfl⟩
  | append_singleton samples x ih =>
    obtain ⟨c, hc, hi, hwindow⟩ := ih
    obtain ⟨c', hsteps, hpoint, hnext⟩ := exists_steps_update c hi x
    refine ⟨c', hc.trans hsteps, by rw [hpoint, hi], ?_⟩
    rw [hnext, hwindow, Window.advanceAll_append]
    rfl

end Alone

end SharedWindow

end IoWatch
