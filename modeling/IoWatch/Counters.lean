import IoWatch.Text.Blank
import IoWatch.Text.Lines
import IoWatch.Text.Integer

/-!
# The counters file of a process

The kernel reports a process's counters in lines of a name, a colon and a number. Two of the names
are of interest. A line that gives no number of at most 63 bits is skipped, wherever it stands, and
of several good lines for one name the last one counts.

## Main definitions

* `Counters`, `Counters.parse`: the two counters, as far as a text gives them
* `counterEntry? line`: the name and the number of a good line
-/

namespace IoWatch

/-- The two counters of a process, as far as they are known. -/
structure Counters where
  readBytes : Option Nat
  writeBytes : Option Nat
  deriving DecidableEq, Repr

/-- The name and the number of a line that has both. -/
def counterEntry? (line : List Char) : Option (List Char × Nat) := do
  let (name, value) ← splitAtFirst ':' line
  let n ← natural? 63 (trimmed value)
  return (trimmed name, n)

namespace Counters

/-- No counters. -/
def none : Counters := ⟨.none, .none⟩

/-- The name of the lines for bytes read. -/
def readName : String := "read_bytes"

/-- The name of the lines for bytes written. -/
def writeName : String := "write_bytes"

/-- The counters after one more line. -/
def addLine (c : Counters) (line : List Char) : Counters :=
  match counterEntry? line with
  | .none => c
  | some (name, n) =>
    if name = readName.toList then { c with readBytes := some n }
    else if name = writeName.toList then { c with writeBytes := some n }
    else c

/-- The counters that a text gives. -/
def parse (text : List Char) : Counters := (lines text).foldl addLine none

end Counters

end IoWatch
