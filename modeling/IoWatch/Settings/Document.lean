import IoWatch.Settings
import IoWatch.Storage.FileTree
import IoWatch.Toml.Document

/-!
# Settings files

A settings file is a TOML document. Eight keys of it mean something, each of one type and range; the
rest is ignored. A key that is not there leaves what holds by default.

## Main definitions

* `Settings.ofTable`: the settings of a document's table
* `Settings.ofText`: the checked settings of a document
* `Settings.ofFile`: the checked settings of a file
-/

namespace IoWatch

namespace Settings

/-- A natural number below `2 ^ bits`. -/
def natural? (bits : Nat) : Toml.Value → Option Nat
  | .integer i => if 0 ≤ i ∧ i < Nat.pow 2 bits then some i.toNat else none
  | _ => none

/-- A truth value. -/
def boolean? : Toml.Value → Option Bool
  | .boolean b => some b
  | _ => none

/-- A path. -/
def path? : Toml.Value → Option Path
  | .string s => some (Path.ofString s)
  | _ => none

/-- What a key of a table gives: nothing if it is not there, an error if its value is none of the
kind asked for. -/
def field (t : Toml.Table) (key : String) (read : Toml.Value → Option α) :
    Except SettingsError (Option α) :=
  match t.lookup key with
  | none => .ok none
  | some v =>
    match read v with
    | some a => .ok (some a)
    | none => .error .document

/-- The settings of a document's table. -/
def ofTable (t : Toml.Table) : Except SettingsError Settings := do
  let pid ← field t "pid" (natural? 32)
  let intervalMs ← field t "interval_ms" (natural? 64)
  let procRoot ← field t "proc_root" path?
  let refreshMs ← field t "refresh_ms" (natural? 64)
  let historySecs ← field t "history_secs" (natural? 64)
  let headless ← field t "headless" boolean?
  let json ← field t "json" boolean?
  let logFile ← field t "log_file" path?
  return {
    pid := pid.map UInt32.ofNat
    intervalMs := (intervalMs.map UInt64.ofNat).getD standard.intervalMs
    procRoot := procRoot.getD standard.procRoot
    refreshMs := (refreshMs.map UInt64.ofNat).getD standard.refreshMs
    historySecs := (historySecs.map UInt64.ofNat).getD standard.historySecs
    headless := headless.getD standard.headless
    json := json.getD standard.json
    logFile }

/-- The checked settings of a table, if there is one. -/
def ofTable? (t : Option Toml.Table) : Except SettingsError Settings :=
  match t with
  | none => .error .document
  | some t => do
    let s ← ofTable t
    s.checked

/-- The checked settings of a document. -/
def ofText (text : List Char) : Except SettingsError Settings := ofTable? (Toml.parse text)

/-- The checked settings of a file whose text, or the fault in its place, is given. -/
def ofFile (path : Path) (text : Except Fault (List Char)) : Except SettingsError Settings :=
  match text with
  | .ok cs => ofText cs
  | .error fault => .error (.unreadable path fault)

end Settings

end IoWatch
