import IoWatch.Storage.Fault
import IoWatch.Storage.Path

/-!
# Settings of the monitor

## Main definitions

* `Settings`, `Settings.standard`: what can be set, and what holds when nothing is
* `SettingsError`, `SettingsError.message`: why settings are refused
* `Settings.validate`: the checks, in their order
* `Settings.historyLength`: how many refreshes the dashboard's history holds
-/

namespace IoWatch

/-- Why settings are refused. -/
inductive SettingsError where
  | unreadable (path : Path) (fault : Fault)
  /-- The settings file is no document of settings. What its reader finds wrong, and where, is not
  kept: the message ends before that detail. -/
  | document
  | zeroInterval (field : String)
  /-- The span of the history is out of range. -/
  | historyRange (max : UInt64)
  | noProcess (pid : UInt32) (root : Path)
  deriving DecidableEq, Repr

namespace SettingsError

/-- What is said of the error. -/
def message : SettingsError → String
  | unreadable path fault => "failed to read config " ++ path.display ++ ": " ++ fault.message
  | document => "invalid config file"
  | zeroInterval field => field ++ " must be a positive number of milliseconds"
  | historyRange max => "history_secs must be between 1 and " ++ toString max.toNat
  | noProcess pid root =>
    "no process with pid " ++ toString pid.toNat ++ " under " ++ root.display

/-- The fault behind the error. -/
def fault? : SettingsError → Option Fault
  | unreadable _ fault => some fault
  | _ => none

end SettingsError

/-- What can be set. -/
structure Settings where
  /-- The process to observe; by default the monitor itself. -/
  pid : Option UInt32
  intervalMs : UInt64
  procRoot : Path
  /-- Milliseconds between redraws of the dashboard. -/
  refreshMs : UInt64
  /-- Seconds that the dashboard's history spans. -/
  historySecs : UInt64
  /-- Whether rates are logged instead of shown on a dashboard. -/
  headless : Bool
  /-- Whether a line of JSON is printed for each sample as well. -/
  json : Bool
  logFile : Option Path
  deriving DecidableEq, Repr

/-- The longest history in seconds. -/
def maxHistorySecs : UInt64 := 3600

/-- The longest history in refreshes. -/
def maxHistoryLength : Nat := 10000

namespace Settings

/-- What holds when nothing is set. -/
def standard : Settings where
  pid := none
  intervalMs := 60000
  procRoot := Path.ofString "/proc"
  refreshMs := 500
  historySecs := 60
  headless := false
  json := false
  logFile := none

/-- Refuses an interval or a redraw period of zero and a history out of range, in this order. -/
def validate (s : Settings) : Except SettingsError Unit :=
  if s.intervalMs = 0 then .error (.zeroInterval "interval_ms")
  else if s.refreshMs = 0 then .error (.zeroInterval "refresh_ms")
  else if s.historySecs < 1 ∨ maxHistorySecs < s.historySecs then
    .error (.historyRange maxHistorySecs)
  else .ok ()

/-- The settings if they pass every check. -/
def checked (s : Settings) : Except SettingsError Settings := do
  s.validate
  return s

/-- A product of words that stops at the largest word. -/
def saturatingMul (a b : UInt64) : UInt64 := .ofNat (min (a.toNat * b.toNat) (Nat.pow 2 64 - 1))

/-- How many redraws fall into the history's span: at least one, at most the longest history. A
redraw period of zero counts as one millisecond. -/
def historyLength (s : Settings) : Nat :=
  max 1 (min (saturatingMul s.historySecs 1000 / max s.refreshMs 1).toNat maxHistoryLength)

end Settings

end IoWatch
