import IoWatch.Counters
import IoWatch.Event
import IoWatch.Sample
import IoWatch.Storage.FileTree

/-!
# Readings

A reading turns a process's counters file into a sample. It always gives a sample: what keeps the
counters from being read is logged, and the unreadable sample stands in for them.

## Main definitions

* `ReadError`, `ReadError.message`: why a counters file gave no sample
* `readCounters`: the two counters of a file
* `Reading`, `readSample`: a sample and what was logged on the way
* `Source`, `Source.read`: where a reading comes from, and the reading
-/

namespace IoWatch

/-- Why a counters file gave no sample. -/
inductive ReadError where
  | unreadable (path : Path) (fault : Fault)
  /-- The file has no good line for a counter. -/
  | missing (path : Path) (field : String)
  deriving DecidableEq, Repr

namespace ReadError

/-- What is said of the error. -/
def message : ReadError → String
  | unreadable path fault => "failed to read " ++ path.display ++ ": " ++ fault.message
  | missing path field => path.display ++ " has no \u0060" ++ field ++ "\u0060 entry"

/-- The fault behind the error. -/
def fault? : ReadError → Option Fault
  | unreadable _ fault => some fault
  | missing .. => none

end ReadError

/-- The two counters in the text of a file. The counter of bytes read is asked for first. -/
def bothCounters (path : Path) (text : List Char) : Except ReadError (Nat × Nat) :=
  match Counters.parse text with
  | ⟨some r, some w⟩ => .ok (r, w)
  | ⟨none, _⟩ => .error (.missing path Counters.readName)
  | ⟨some _, none⟩ => .error (.missing path Counters.writeName)

/-- The two counters of a file whose text, or the fault in its place, is given. -/
def readCounters (path : Path) (text : Except Fault (List Char)) : Except ReadError (Nat × Nat) :=
  match text with
  | .ok cs => bothCounters path cs
  | .error fault => .error (.unreadable path fault)

/-- A sample and what was logged on the way to it. -/
structure Reading where
  sample : Sample
  events : List Event
  deriving DecidableEq

/-- The event that reports an error. -/
def ReadError.event (path : Path) (e : ReadError) : Event :=
  ⟨.warn, "Process I/O counters unreadable",
    [("path", .text path.display), ("error", .text e.message)]⟩

/-- The reading of a file whose text, or the fault in its place, is given, at a clock time. -/
def readSample (path : Path) (clock : Int64) (text : Except Fault (List Char)) : Reading :=
  match readCounters path text with
  | .ok (r, w) => ⟨⟨clock, Int64.ofNat r, Int64.ofNat w⟩, []⟩
  | .error e => ⟨.unreadable, [e.event path]⟩

/-- Where a reading comes from. -/
inductive Source where
  /-- A sample at hand, of which nothing is logged. -/
  | sample (s : Sample)
  /-- A counters file, read at a clock time: its text, or the fault in its place. -/
  | countersFile (path : Path) (clock : Int64) (text : Except Fault (List Char))
  /-- A broken source: reading it ends the tick. -/
  | broken

/-- The reading that a source gives, unless it is broken. -/
def Source.read : Source → Option Reading
  | sample s => some ⟨s, []⟩
  | countersFile path clock text => some (readSample path clock text)
  | broken => none

end IoWatch
