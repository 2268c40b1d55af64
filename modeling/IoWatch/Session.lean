import IoWatch.Scheduler
import IoWatch.Settings.Layers

/-!
# Sessions

A session is one run of the monitor. It reads the command line and the settings, opens the log
file, finds the process, and then samples until it is told to stop. Each of the first steps can
fail, and a failure ends the session with an exit code and a complaint.

## Main definitions

* `Failure`, `Failure.exitCode`, `Failure.complaint`: why a session ends early, and how
* `LogTarget`, `Settings.logTarget`: where the log goes
* `Plan`: what a session has found out before it samples
* `Plan.scheduler`, `Plan.source`: the scheduler of a session and what a tick reads
* `Plan.watch`: the scheduler after a session, tick by tick
* `Session.prepare`: the steps before sampling, over a tree of files
-/

namespace IoWatch

/-- Why a session ends early. -/
inductive Failure where
  /-- The command line is refused, or asks for help. -/
  | usage (error : UsageError)
  /-- The settings are refused, or there is no process to observe. -/
  | settings (error : SettingsError)
  | logFile (path : Path) (fault : Fault)
  /-- The dashboard has no terminal. -/
  | dashboard (fault : Fault)
  deriving DecidableEq, Repr

namespace Failure

/-- The exit code of a session that ends early. -/
def exitCode : Failure → Nat
  | usage e => e.exitCode
  | _ => 1

/-- A complaint and the fault behind it, if there is one. -/
def complaintText (message : String) (cause : Option Fault) : String :=
  "Error: " ++ message ++
    (cause.map fun f => "\n\nCaused by:\n    " ++ f.message).getD "" ++ "\n"

/-- What is written of a failure. The command line's own help is not part of it. -/
def complaint : Failure → String
  | usage _ => ""
  | settings e => complaintText e.message e.fault?
  | logFile path fault => complaintText ("failed to create log file " ++ path.display) (some fault)
  | dashboard fault => complaintText "dashboard failed" (some fault)

end Failure

/-- Where the log goes. -/
inductive LogTarget where
  | file (path : Path)
  | standardError
  /-- Nowhere, since the dashboard has the terminal for itself. -/
  | nowhere
  deriving DecidableEq, Repr

/-- Where the log of a session goes. -/
def Settings.logTarget (s : Settings) : LogTarget :=
  match s.logFile with
  | some path => .file path
  | none => if s.headless then .standardError else .nowhere

/-- What a session has found out before it samples. -/
structure Plan where
  settings : Settings
  pid : UInt32
  deriving DecidableEq, Repr

namespace Plan

/-- The counters file of the observed process. -/
def countersFile (p : Plan) : Path := countersPath p.settings.procRoot p.pid

/-- Whether the session prints a line of JSON for each sample. -/
def printsLines (p : Plan) : Bool := p.settings.headless && p.settings.json

/-- The publishers of a session: the log, and the printed lines if they are asked for. -/
def publishers (p : Plan) (output : Sink) : List Publisher :=
  .rateLog :: if p.printsLines then [.jsonLines output] else []

/-- The scheduler of a session whose observation begins at an instant. -/
def scheduler (p : Plan) (sinceMs : Int64) (output : Sink) : Scheduler :=
  .create p.settings.intervalMs (.start sinceMs) (p.publishers output)

/-- What a tick reads, given the clock time and the text of the counters file. -/
def source (p : Plan) (clock : Int64) (text : Except Fault (List Char)) : Source :=
  .countersFile p.countersFile clock text

/-- The scheduler after a session: it is started, ticks once for each source, and is stopped. -/
def watch (p : Plan) (sinceMs : Int64) (output : Sink) (sources : List Source) :
    Scheduler × List Event :=
  (p.scheduler sinceMs output).run
    (.start none (.ok ()) :: (sources.map .tick ++ [.stop]))

/-- The event that a session begins with. -/
def startingEvent (p : Plan) : Event :=
  ⟨.info, "proc_io_monitor starting",
    [("pid", .int p.pid.toNat), ("path", .text p.countersFile.display),
      ("interval_ms", .int p.settings.intervalMs.toNat)]⟩

end Plan

namespace Session

/-- The event that a session without a dashboard ends with. -/
def endingEvent : Event := ⟨.info, "Shutting down gracefully", []⟩

/-- The settings of a command line. -/
def settingsOf (files : FileTree) (args : List (List UInt8)) : Except Failure Settings := do
  let flags ← (CommandLine.parse args).mapError .usage
  (Settings.ofFlags files.readText flags).mapError .settings

/-- The files after the log file is opened, if the settings name one. -/
def openLog (files : FileTree) (s : Settings) : Except Failure FileTree :=
  match s.logTarget with
  | .file path => (files.create path).mapError (.logFile path)
  | _ => .ok files

/-- The steps of a session before it samples: the files after them, and the plan if none failed. The
log file is opened before the process is looked for. -/
def prepare (self : UInt32) (files : FileTree) (args : List (List UInt8)) :
    FileTree × Except Failure Plan :=
  match settingsOf files args with
  | .error e => (files, .error e)
  | .ok settings =>
    match openLog files settings with
    | .error e => (files, .error e)
    | .ok files =>
      (files, ((observedProcess self files.isDirectory settings.procRoot settings.pid).mapError
        .settings).map fun pid => ⟨settings, pid⟩)

end Session

end IoWatch
