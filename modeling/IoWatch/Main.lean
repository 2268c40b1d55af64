import IoWatch.Dashboard.Loop
import IoWatch.Event.Line
import IoWatch.Session
import Std.Time.Zoned

/-!
# The monitor as a program

The program hands files, clocks and the terminal to the library and leaves every decision to it.
Without a dashboard it samples until it is interrupted. With one it redraws until a line is entered
whose first character ends the dashboard.

## Main definitions

* `Terminal.prepare`: the steps before sampling, on the files of the system
* `Terminal.tick`: one tick of a scheduler, with its log and its output
* `Terminal.sampleForever`, `Terminal.showDashboard`: the two ways to run
* `main`: one session
-/

namespace IoWatch

namespace Terminal

/-! ## Files and clocks -/

/-- The fault that an error of the system reports. -/
def faultOf : IO.Error → Fault
  | .noFileOrDirectory .. => .notFound
  | e => .other (toString e)

/-- The outcome of an action on a file. -/
def attempt (action : IO α) : IO (Except Fault α) := do
  try
    return .ok (← action)
  catch e =>
    return .error (faultOf e)

/-- The text of a file. -/
def readText (path : Path) : IO (Except Fault (List Char)) := do
  match ← attempt (IO.FS.readBinFile path.display) with
  | .error fault => return .error fault
  | .ok bytes =>
    match Utf8.decode bytes.toList with
    | some cs => return .ok cs
    | none => return .error .illFormedText

/-- Whether a path leads to a directory: only then there is something behind it. -/
def isDirectory (path : Path) : IO Bool := do
  match ← attempt (IO.FS.Handle.mk (path.display ++ "/.") .read) with
  | .ok _ => return true
  | .error _ => return false

/-- The number of this process, as the first word of its status gives it. -/
def ownProcess : IO UInt32 := do
  match ← readText (Path.ofString "/proc/self/stat") with
  | .ok cs => return .ofNat ((natural? 32 (cs.takeWhile (!isBlank ·))).getD 0)
  | .error _ => return 0

/-- The time in milliseconds. -/
def clockMs : IO Int64 := do
  return .ofInt (← Std.Time.Timestamp.now).toMillisecondsSinceUnixEpoch.val

/-- The time of day. -/
def timeOfDay : IO ClockTime := do
  return ⟨(← Std.Time.PlainTime.now).toSeconds.val.toNat⟩

/-! ## Before sampling -/

/-- The log of a session: where its lines go, if they go anywhere, and its filter. -/
structure Log where
  /-- Where the lines go. -/
  stream : Option IO.FS.Stream
  filter : LogFilter

/-- Logs events. -/
def Log.write (log : Log) (events : List Event) : IO Unit := do
  match log.stream with
  | none => return
  | some stream =>
    for line in log.filter.linesOf events do
      stream.putStrLn (String.ofList line)
    stream.flush

/-- The stream that a session logs to. -/
def openLog (target : LogTarget) : IO (Except Failure (Option IO.FS.Stream)) := do
  match target with
  | .file path =>
    match ← attempt (IO.FS.Handle.mk path.display .write) with
    | .ok handle => return .ok (some (.ofHandle handle))
    | .error fault => return .error (.logFile path fault)
  | .standardError => return .ok (some (← IO.getStderr))
  | .nowhere => return .ok none

/-- The settings of a command line, whose settings file is read first. -/
def settingsOf (flags : Flags) : IO (Except SettingsError Settings) := do
  let text ← match flags.config with
    | some path => readText path
    | none => pure (.ok [])
  return Settings.ofFlags (fun _ => text) flags

/-- The plan and the log of a session. -/
def prepare (args : List String) : IO (Except Failure (Plan × Log)) := do
  match CommandLine.parse (args.map fun a => Utf8.encode a.toList) with
  | .error e => return .error (.usage e)
  | .ok flags =>
    match ← settingsOf flags with
    | .error e => return .error (.settings e)
    | .ok settings =>
      match ← openLog settings.logTarget with
      | .error e => return .error e
      | .ok stream =>
        let filter := LogFilter.ofSetting ((← IO.getEnv "IO_WATCH_LOG").map String.toList)
        let found ← match settings.pid with
          | some pid => isDirectory (processDirectory settings.procRoot pid)
          | none => pure true
        let self ← ownProcess
        match observedProcess self (fun _ => found) settings.procRoot settings.pid with
        | .error e => return .error (.settings e)
        | .ok pid => return .ok (⟨settings, pid⟩, ⟨stream, filter⟩)

/-! ## Sampling -/

/-- Prints what the publishers have written since the last time. -/
def printOutput (s : Scheduler) : IO Scheduler := do
  let output ← IO.getStdout
  let publishers ← s.publishers.mapM fun p =>
    match p with
    | .jsonLines sink => do
      output.write ⟨sink.written.toArray⟩
      output.flush
      return .jsonLines { sink with written := [] }
    | _ => return p
  return { s with publishers }

/-- The scheduler after a step, with its log and its output. -/
def follow (log : Log) (s : Scheduler) (step : Step) : IO Scheduler := do
  let (s, events, _) := s.step step
  log.write events
  printOutput s

/-- The scheduler after its tick has come and has read the counters file. -/
def tick (plan : Plan) (log : Log) (s : Scheduler) : IO Scheduler := do
  follow log s (.tick (plan.source (← clockMs) (← readText plan.countersFile)))

/-- Waits for a number of milliseconds. -/
def wait (millis : Nat) : IO Unit := IO.sleep (.ofNat (min millis 4294967295))

/-- Ticks at a fixed rate until the program is interrupted. -/
partial def sampleForever (plan : Plan) (log : Log) (s : Scheduler) (due : Nat) : IO Unit := do
  let now ← IO.monoMsNow
  if now < due then
    wait (due - now)
    sampleForever plan log s due
  else
    sampleForever plan log (← tick plan log s) (due + plan.settings.intervalMs.toNat)

/-! ## The dashboard -/

/-- A number of the environment, or what stands for it. -/
def environmentNumber (name : String) (otherwise : Nat) : IO Nat := do
  return (((← IO.getEnv name).map String.toList).bind (natural? 16)).getD otherwise

/-- Draws the frame of a dashboard over the terminal. -/
def draw (output : IO.FS.Stream) (d : Dashboard) : IO Unit := do
  let frame := d.frame (← environmentNumber "COLUMNS" 120) (← environmentNumber "LINES" 30)
  let rows := frame.rowTexts.map String.ofList
  output.putStr ("\x1b[H\x1b[2J" ++ String.intercalate "\r\n" rows)
  output.flush

/-- What a line of input means to the dashboard: the key of its first character. -/
def happeningOf (line : String) : Happening :=
  match line.toList with
  | [] => .nothing
  | c :: _ => .key c

/-- A line of input that is being waited for. -/
abbrev Input := Task (Except IO.Error String)

/-- Begins to wait for a line of input. -/
def awaitLine : IO Input := do
  IO.asTask (← IO.getStdin).getLine .dedicated

/-- What happened at the keyboard so far. -/
def happening (input : Input) : IO Happening := do
  if ← IO.hasFinished input then return happeningOf (input.get.toOption.getD "")
  else return .nothing

/-- Redraws the dashboard each time the refresh period has passed, and ticks at a fixed rate, until
a line that has been entered ends it. -/
partial def showDashboard (plan : Plan) (log : Log) (s : Scheduler) (d : Dashboard) (due : Nat)
    (input : Input) : IO Unit := do
  draw (← IO.getStdout) d
  wait plan.settings.refreshMs.toNat
  let happened ← happening input
  match happened.ending? with
  | some _ => return
  | none =>
    let input ← if happened = .nothing then pure input else awaitLine
    let isDue := decide (due ≤ (← IO.monoMsNow))
    let s ← if isDue then tick plan log s else pure s
    let due := if isDue then due + plan.settings.intervalMs.toNat else due
    match d.tick s.usage (← timeOfDay) with
    | (_, .error reason) => throw (IO.userError reason.message)
    | (d, .ok ()) => showDashboard plan log s d due input

/-- The dashboard of a session, if there is a terminal to show it on. -/
def dashboard (plan : Plan) (log : Log) (s : Scheduler) : IO (Except Failure Unit) := do
  if !(← (← IO.getStdout).isTty) then
    return .error (.dashboard (.other "no terminal"))
  match Dashboard.create plan.pid plan.settings.intervalMs plan.settings.historyLength s.usage
      (← timeOfDay) with
  | .error reason => throw (IO.userError reason.message)
  | .ok d =>
    showDashboard plan log s d (← IO.monoMsNow) (← awaitLine)
    return .ok ()

/-- A session that has been prepared. -/
def run (plan : Plan) (log : Log) : IO (Except Failure Unit) := do
  log.write [plan.startingEvent]
  let s ← follow log (plan.scheduler (← clockMs) .unlimited) (.start none (.ok ()))
  if plan.settings.headless then
    sampleForever plan log s (← IO.monoMsNow)
    return .ok ()
  else
    let outcome ← dashboard plan log s
    let _ ← follow log s .stop
    return outcome

/-- What the command line accepts. -/
def help : String :=
  "Usage: io-watch [-c PATH] [-p PID] [-i MS] [--proc-root PATH] [--log-file PATH] " ++
    "[--headless] [--json]"

/-- What is written about a session that ends early. -/
def report (failure : Failure) : IO Unit := do
  match failure with
  | .usage .help => IO.println help
  | .usage _ => IO.eprintln help
  | _ => IO.eprint failure.complaint

end Terminal

end IoWatch

open IoWatch in
/-- One session of the monitor. -/
def main (args : List String) : IO UInt32 := do
  let outcome ← match ← Terminal.prepare args with
    | .error failure => pure (.error failure)
    | .ok (plan, log) => Terminal.run plan log
  match outcome with
  | .ok () => return 0
  | .error failure =>
    Terminal.report failure
    return .ofNat failure.exitCode
