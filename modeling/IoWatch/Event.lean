import IoWatch.Numeric.Binary64

/-!
# Log events

## Main definitions

* `Level`, `Level.name`: how serious an event is
* `FieldValue`: an integer, a number or a text that an event carries
* `Event`: a message with its level and its fields
-/

namespace IoWatch

/-- How serious an event is, from the most to the least. -/
inductive Level where
  | error
  | warn
  | info
  | debug
  | trace
  deriving DecidableEq, Repr

/-- The name of a level. -/
def Level.name : Level → String
  | error => "ERROR"
  | warn => "WARN"
  | info => "INFO"
  | debug => "DEBUG"
  | trace => "TRACE"

/-- What a field of an event holds. -/
inductive FieldValue where
  | int (i : Int)
  | number (x : Binary64)
  | text (s : String)
  deriving DecidableEq

/-- A message with its level and its fields. -/
structure Event where
  level : Level
  message : String
  fields : List (String × FieldValue)
  deriving DecidableEq

end IoWatch
