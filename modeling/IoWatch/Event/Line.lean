import IoWatch.Event
import IoWatch.Json
import IoWatch.LogFilter

/-!
# Log lines

An event that the filter lets through is logged on a line of its own: its level, its message, and
its fields by name.

## Main definitions

* `Level.verbosity`, `LogFilter.admits`: the verbosity an event needs, and whether a filter has it
* `Event.line`: the line of an event, without a line end
* `LogFilter.linesOf`: the lines of the events that a filter lets through

## Main results

* `LogFilter.admits_trace`, `LogFilter.not_admits_off`: at the greatest verbosity every event
  passes, at the least none
-/

namespace IoWatch

/-- The verbosity that an event of a level needs. -/
def Level.verbosity : Level → Verbosity
  | error => .error
  | warn => .warn
  | info => .info
  | debug => .debug
  | trace => .trace

/-- Whether a filter is verbose enough for an event. -/
def LogFilter.admits (f : LogFilter) (e : Event) : Bool :=
  e.level.verbosity.rank ≤ f.verbosity.rank

theorem LogFilter.admits_trace {f : LogFilter} (h : f.verbosity = .trace) (e : Event) :
    f.admits e = true := by
  cases hl : e.level <;> simp [admits, h, hl, Level.verbosity, Verbosity.rank]

theorem LogFilter.not_admits_off {f : LogFilter} (h : f.verbosity = .off) (e : Event) :
    f.admits e = false := by
  cases hl : e.level <;> simp [admits, h, hl, Level.verbosity, Verbosity.rank]

/-- The text of a field's value. -/
def FieldValue.lineText : FieldValue → List Char
  | int i => integerText i
  | number x => Json.numberText x
  | text s => s.toList

/-- The line of an event: its level, its message, and its fields by name. -/
def Event.line (e : Event) : List Char :=
  e.level.name.toList ++ ' ' :: (e.message.toList ++
    e.fields.flatMap fun (name, value) => ' ' :: (name.toList ++ '=' :: value.lineText))

/-- The lines of the events that a filter lets through. -/
def LogFilter.linesOf (f : LogFilter) (events : List Event) : List (List Char) :=
  (events.filter f.admits).map Event.line

end IoWatch
