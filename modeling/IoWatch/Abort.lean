/-!
# Aborts

Some computations have no result to return and no error to report: they end where they are. An
abort says why. What catches it decides what is lost; everything done before it stays done.

## Main definitions

* `Abort`, `Abort.message`: the reasons, and what is said of them
* `Completion`, `Completion.caught`: how a computation ends that may be aborted, and what catches
  an abort
* `difference a b`: the difference of two words, which aborts when it is no word
-/

namespace IoWatch

/-- Why a computation ended without a result. -/
inductive Abort where
  /-- The difference of two words is not a word. -/
  | overflow
  /-- A history of no entries has no oldest one to drop. -/
  | emptyHistory
  /-- A publisher gave up inside its call. -/
  | publisher
  deriving DecidableEq, Repr

/-- What is said of an abort. -/
def Abort.message : Abort → String
  | overflow => "attempt to subtract with overflow"
  | emptyHistory => "removal index (is 0) should be < len (is 0)"
  | publisher => "publisher blew up"

/-- How a computation ends that may be aborted, for those who do not look at the reason. -/
inductive Completion (α : Type) where
  | returned (result : α)
  | aborted
  deriving DecidableEq, Repr

/-- The end of what catches an abort: it returns, with a result if there is one. -/
def Completion.caught {α : Type} : Completion α → Completion (Option α)
  | returned result => returned (some result)
  | aborted => returned none

/-- Whether an integer is a signed word of 64 bits. -/
def IsWord (i : Int) : Prop := Int64.minValue.toInt ≤ i ∧ i ≤ Int64.maxValue.toInt

instance (i : Int) : Decidable (IsWord i) := inferInstanceAs (Decidable (_ ∧ _))

/-- The difference of two words. It aborts exactly when the difference is not a word. -/
def difference (a b : Int64) : Except Abort Int64 :=
  let d := a.toInt - b.toInt
  if IsWord d then .ok (Int64.ofInt d) else .error .overflow

end IoWatch
