import IoWatch.Text.Integer

/-!
# Verbosities

## Main definitions

* `Verbosity`, `Verbosity.rank`: how much is logged, from nothing to everything
* `Verbosity.ofText?`: the spellings of a verbosity

## Main results

* `Verbosity.ofText?_name`: a verbosity is spelled by its name
* `Verbosity.rank_max`: the greater of two verbosities has the greater rank
-/

namespace IoWatch

/-- How much is logged, from nothing to everything. -/
inductive Verbosity where
  | off
  | error
  | warn
  | info
  | debug
  | trace
  deriving DecidableEq, Repr

namespace Verbosity

/-- The place of a verbosity, from none to all. -/
def rank : Verbosity → Nat
  | off => 0
  | error => 1
  | warn => 2
  | info => 3
  | debug => 4
  | trace => 5

/-- The name of a verbosity. -/
def name : Verbosity → String
  | off => "off"
  | error => "error"
  | warn => "warn"
  | info => "info"
  | debug => "debug"
  | trace => "trace"

/-- All verbosities, by rank. -/
def all : List Verbosity := [off, error, warn, info, debug, trace]

/-- The greater of two verbosities. -/
def max (a b : Verbosity) : Verbosity := if a.rank < b.rank then b else a

theorem rank_max (a b : Verbosity) : (a.max b).rank = Nat.max a.rank b.rank := by
  cases a <;> cases b <;> rfl

/-- The verbosity that a text spells: its rank as a number, or its name in any case. -/
def ofText? (cs : List Char) : Option Verbosity :=
  match natural? 64 cs with
  | some n => all[n]?
  | none => all.find? fun v => v.name.toList == cs.map Char.toLower

theorem ofText?_name (v : Verbosity) : ofText? v.name.toList = some v := by
  cases v <;> decide

end Verbosity

end IoWatch
