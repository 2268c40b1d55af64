import IoWatch.CommandLine
import IoWatch.ProcessTree
import IoWatch.Settings.Document

/-!
# Layers of settings

Settings come from three layers: what the command line sets, what the settings file sets, and what
holds by default. The file is checked on its own, so the command line cannot mend it; the result is
checked again.

## Main definitions

* `Settings.override`: settings with the command line laid over them
* `Settings.ofFlags`: the checked settings of a command line, with the files it may name
* `observedProcess`: the process to observe
-/

namespace IoWatch

namespace Settings

/-- Settings with the command line laid over them: a value wins over what is below it, and a flag
is set if either layer sets it. -/
def override (s : Settings) (f : Flags) : Settings :=
  { s with
    pid := f.pid <|> s.pid
    intervalMs := f.intervalMs.getD s.intervalMs
    procRoot := f.procRoot.getD s.procRoot
    logFile := f.logFile <|> s.logFile
    headless := s.headless || f.headless
    json := s.json || f.json }

/-- The settings below the command line: those of the file it names, or what holds by default. -/
def base (read : Path → Except Fault (List Char)) (f : Flags) : Except SettingsError Settings :=
  match f.config with
  | some path => ofFile path (read path)
  | none => .ok standard

/-- The checked settings of a command line, given how files are read. -/
def ofFlags (read : Path → Except Fault (List Char)) (f : Flags) :
    Except SettingsError Settings := do
  let s ← base read f
  (s.override f).checked

end Settings

/-- The process to observe: the requested one, which must have a directory, or else the monitor
itself. -/
def observedProcess (self : UInt32) (isDirectory : Path → Bool) (root : Path)
    (requested : Option UInt32) : Except SettingsError UInt32 :=
  match requested with
  | none => .ok self
  | some pid =>
    if isDirectory (processDirectory root pid) then .ok pid
    else .error (.noProcess pid root)

end IoWatch
