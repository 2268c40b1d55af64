import IoWatch.CommandLine.Flags

/-!
# The command line

Arguments are byte strings. An option has a long name behind two dashes or a letter behind one; its
value stands behind an equals sign, behind its letter, or in the next argument unless that looks
like an option. There are no other arguments.

What is wrong is reported in the order of the arguments. A value in an argument of its own is only
looked at when the next known option or flag comes, or at the end; what is no option or flag is
reported without looking at a value that is still waiting.

## Main definitions

* `CommandLine.Waiting`, `CommandLine.Progress`: the flags so far, and an option that waits
* `CommandLine.Progress.argument`: the progress after one argument
* `CommandLine.parse`: the flags of a list of arguments
-/

namespace IoWatch

namespace CommandLine

/-! ## Arguments -/

/-- An option that waits for its value, and the value if it has come. -/
inductive Waiting where
  | nothing
  /-- An option has no value yet. -/
  | value (name : OptionName)
  /-- An option has a value that was not looked at yet. -/
  | check (name : OptionName) (value : List UInt8)
  deriving DecidableEq, Repr

/-- The flags after what waits is settled. -/
def settle (f : Flags) : Waiting → Except UsageError Flags
  | .nothing => .ok f
  | .value _ => .error .invalidValue
  | .check name value => takeOption f name value

/-- The flags so far and what waits. -/
structure Progress where
  flags : Flags
  /-- The option that waits. -/
  waiting : Waiting
  deriving DecidableEq, Repr

/-- The progress after an option whose value is attached, or will come in the next argument. -/
def Progress.option (p : Progress) (name : OptionName) (attached : Option (List UInt8)) :
    Except UsageError Progress := do
  let flags ← settle p.flags p.waiting
  match attached with
  | some value => return ⟨← takeOption flags name value, .nothing⟩
  | none => return ⟨flags, .value name⟩

/-- The progress after a flag. -/
def Progress.flag (p : Progress) (name : FlagName) : Except UsageError Progress := do
  let flags ← settle p.flags p.waiting
  return ⟨← takeFlag flags name, .nothing⟩

/-- The value attached to a letter: what follows it, without an equals sign in front. -/
def attachedValue (rest : List UInt8) : Option (List UInt8) :=
  match rest with
  | [] => none
  | b :: value => if b = equalsSign then some value else some rest

/-- The progress after the letters behind one dash. An option takes all that follows its letter. -/
def Progress.letters (p : Progress) : List UInt8 → Except UsageError Progress
  | [] => .ok p
  | b :: rest =>
    match shortKey? b with
    | some (.opt name) => p.option name (attachedValue rest)
    | some (.flag name) =>
      match p.flag name with
      | .ok p => p.letters rest
      | .error e => .error e
    | none => .error .unknownArgument

/-- The progress after a long name and the value behind its equals sign, if it has one. -/
def Progress.long (p : Progress) (name : List UInt8) (value : Option (List UInt8)) :
    Except UsageError Progress :=
  match (Utf8.decode name).bind (longKey? ∘ String.ofList), value with
  | some (.opt name), _ => p.option name value
  | some (.flag _), some _ => .error .unexpectedValue
  | some (.flag name), none => p.flag name
  | none, _ => .error .unknownArgument

/-- The name and the value of a long argument. -/
def splitEquals (arg : List UInt8) : List UInt8 × Option (List UInt8) :=
  (arg.takeWhile (· != equalsSign), (arg.dropWhile (· != equalsSign)).tail?)

/-- The progress after an argument that is no option or flag: it is the value of an option that
waits for one. -/
def Progress.plain (p : Progress) (arg : List UInt8) : Except UsageError Progress :=
  match p.waiting with
  | .value name => .ok { p with waiting := .check name arg }
  | _ => .error .unknownArgument

/-- The progress after an argument in front of the end mark. -/
def Progress.argument (p : Progress) (arg : List UInt8) : Except UsageError Progress :=
  match arg with
  | 45 :: 45 :: rest => let (name, value) := splitEquals rest; p.long name value
  | 45 :: b :: rest => p.letters (b :: rest)
  | _ => p.plain arg

/-- The progress after a list of arguments. Two dashes alone end the options; nothing may follow
them. -/
def Progress.arguments (p : Progress) : List (List UInt8) → Except UsageError Progress
  | [] => .ok p
  | arg :: args =>
    if arg = [dash, dash] then if args = [] then .ok p else .error .unknownArgument
    else
      match p.argument arg with
      | .ok p => p.arguments args
      | .error e => .error e

/-- The flags of a list of arguments, the name of the program left out. -/
def parse (args : List (List UInt8)) : Except UsageError Flags := do
  let p ← Progress.arguments ⟨{}, .nothing⟩ args
  settle p.flags p.waiting

end CommandLine

end IoWatch
