import IoWatch.Storage.Path
import IoWatch.Text.Integer

/-!
# Options and flags

An option takes a value of its own kind, a flag takes none, and nothing may be given twice. The
value of an option that is given already is refused before it is looked at.

## Main definitions

* `Flags`: what the command line sets
* `UsageError`, `UsageError.exitCode`: why a command line is refused
* `OptionName`, `FlagName`, `CommandLine.Key`: the options and flags, and their spellings
* `CommandLine.takeOption`, `CommandLine.takeFlag`: what is set after one more option or flag
-/

namespace IoWatch

/-- What the command line sets. -/
structure Flags where
  config : Option Path := none
  pid : Option UInt32 := none
  intervalMs : Option UInt64 := none
  procRoot : Option Path := none
  /-- Whether rates are logged instead of shown on a dashboard. -/
  headless : Bool := false
  /-- Whether a line of JSON is printed for each sample as well. -/
  json : Bool := false
  logFile : Option Path := none
  deriving DecidableEq, Repr

/-- Why a command line is refused. -/
inductive UsageError where
  /-- There is no such option, or an argument that is none. -/
  | unknownArgument
  /-- An option has no value, or an empty path. -/
  | invalidValue
  /-- A value is not of its option's kind. -/
  | malformedValue
  | repeatedArgument
  | unexpectedValue
  /-- A number is not even text. -/
  | illFormedText
  | help
  deriving DecidableEq, Repr

/-- The exit code of the program: asking for help is no failure. -/
def UsageError.exitCode : UsageError → Nat
  | help => 0
  | _ => 2

/-- The options. -/
inductive OptionName where
  | config
  | pid
  | intervalMs
  | procRoot
  | logFile
  deriving DecidableEq, Repr

/-- The flags. -/
inductive FlagName where
  | headless
  | json
  | help
  deriving DecidableEq, Repr

namespace CommandLine

/-- An option or a flag. -/
inductive Key where
  /-- An option, which takes a value. -/
  | opt (name : OptionName)
  /-- A flag, which takes none. -/
  | flag (name : FlagName)
  deriving DecidableEq, Repr

/-- What a long name means. -/
def longKey? (name : String) : Option Key :=
  match name with
  | "config" => some (.opt .config)
  | "pid" => some (.opt .pid)
  | "interval-ms" => some (.opt .intervalMs)
  | "proc-root" => some (.opt .procRoot)
  | "log-file" => some (.opt .logFile)
  | "headless" => some (.flag .headless)
  | "json" => some (.flag .json)
  | "help" => some (.flag .help)
  | _ => none

/-- What a letter means. -/
def shortKey? (letter : UInt8) : Option Key :=
  if letter = 99 then some (.opt .config)
  else if letter = 112 then some (.opt .pid)
  else if letter = 105 then some (.opt .intervalMs)
  else if letter = 104 then some (.flag .help)
  else none

/-- The byte of a dash. -/
def dash : UInt8 := 45

/-- The byte of an equals sign. -/
def equalsSign : UInt8 := 61

/-! ## Values -/

/-- The text of a value that has to be one. -/
def textOf (value : List UInt8) : Except UsageError (List Char) :=
  match Utf8.decode value with
  | some cs => .ok cs
  | none => .error .illFormedText

/-- A number of milliseconds: an optional plus sign and digits, below `2 ^ 64`. -/
def millis (value : List UInt8) : Except UsageError UInt64 := do
  let cs ← textOf value
  match natural? 64 cs with
  | some n => .ok (.ofNat n)
  | none => .error .malformedValue

/-- The number of a process: an optional sign and digits. A minus sign is only good for zero. -/
def processNumber (value : List UInt8) : Except UsageError UInt32 := do
  let cs ← textOf value
  let n :=
    match cs with
    | '-' :: '+' :: _ => none
    | '-' :: digits => (natural? 63 digits).filter (· == 0)
    | _ => natural? 32 cs
  match n with
  | some n => .ok (.ofNat n)
  | none => .error .malformedValue

/-- A path, which is not empty. -/
def pathOf (value : List UInt8) : Except UsageError Path :=
  if value = [] then .error .invalidValue else .ok ⟨value⟩

/-- The flags after an option that is not yet given. -/
def setOption (f : Flags) (name : OptionName) (value : List UInt8) : Except UsageError Flags :=
  match name with
  | .config => do let p ← pathOf value; return { f with config := some p }
  | .pid => do let n ← processNumber value; return { f with pid := some n }
  | .intervalMs => do let n ← millis value; return { f with intervalMs := some n }
  | .procRoot => do let p ← pathOf value; return { f with procRoot := some p }
  | .logFile => do let p ← pathOf value; return { f with logFile := some p }

/-- Whether an option is given already. -/
def hasOption (f : Flags) : OptionName → Bool
  | .config => f.config.isSome
  | .pid => f.pid.isSome
  | .intervalMs => f.intervalMs.isSome
  | .procRoot => f.procRoot.isSome
  | .logFile => f.logFile.isSome

/-- The flags after an option with its value; a second value is refused before it is looked at. -/
def takeOption (f : Flags) (name : OptionName) (value : List UInt8) : Except UsageError Flags :=
  if hasOption f name then .error .repeatedArgument else setOption f name value

/-- The flags after a flag. -/
def takeFlag (f : Flags) : FlagName → Except UsageError Flags
  | .headless => if f.headless then .error .repeatedArgument else .ok { f with headless := true }
  | .json => if f.json then .error .repeatedArgument else .ok { f with json := true }
  | .help => .error .help

end CommandLine

end IoWatch
