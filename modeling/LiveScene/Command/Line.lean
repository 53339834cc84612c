import LiveScene.Command.Logging
import LiveScene.Decimal.Reading

/-!
# The command line

A command line names a command and its file. Options may stand on both sides
of the command; what stands after it wins. `Invocation.ofArgs` reads the
arguments of one side after the other.

An option with its value in the next argument is `pending` until the argument
after that one, or the end, settles it. So a later argument that means nothing
is reported before a bad value, and the side after the command before a value
that is pending in front of it.
-/

namespace LiveScene.Command

/-- What there is to do. -/
inductive Subcommand where
  | run
  | check
  | watch
  deriving DecidableEq, Repr, Inhabited

namespace Subcommand

/-- The word for the command. -/
def name : Subcommand → String
  | run => "run"
  | check => "check"
  | watch => "watch"

/-- The command of a word. -/
def ofName? : String → Option Subcommand
  | "run" => some run
  | "check" => some check
  | "watch" => some watch
  | _ => none

end Subcommand

/-- Why arguments are not carried out. Help and version are answers of this kind. -/
inductive LineError where
  | unknownArgument
  | invalidValue
  | valueValidation
  | argumentConflict
  | tooManyValues
  | missingRequiredArgument
  | invalidSubcommand
  | missingSubcommand
  | helpOnMissing
  | help
  | version
  deriving DecidableEq, Repr, Inhabited

namespace LineError

/-- The name of the error. -/
def name : LineError → String
  | unknownArgument => "UnknownArgument"
  | invalidValue => "InvalidValue"
  | valueValidation => "ValueValidation"
  | argumentConflict => "ArgumentConflict"
  | tooManyValues => "TooManyValues"
  | missingRequiredArgument => "MissingRequiredArgument"
  | invalidSubcommand => "InvalidSubcommand"
  | missingSubcommand => "MissingSubcommand"
  | helpOnMissing => "DisplayHelpOnMissingArgumentOrSubcommand"
  | help => "DisplayHelp"
  | version => "DisplayVersion"

/-- The exit code: asking for help or the version is no failure. -/
def exitCode : LineError → Nat
  | help | version => 0
  | _ => 2

end LineError

/-- What takes a value. -/
inductive Setting where
  | config
  | endpoint
  | logFormat
  | interval
  | file
  deriving DecidableEq, Repr, Inhabited

/-- What stands alone. -/
inductive Flag where
  | verbose
  | help
  | version
  deriving DecidableEq, Repr, Inhabited

/-- The values given on one side of the command. -/
structure Given where
  config : Option String
  endpoint : Option String
  logFormat : Option LogFormat
  interval : Option Nat
  file : Option String
  verbose : Nat
  deriving DecidableEq, Repr, Inhabited

/-- The shortest interval between two looks at a file, in milliseconds. -/
def minInterval : Nat := 10

/-- The interval between two looks at a file, in milliseconds. -/
def defaultInterval : Nat := 250

/-- The most that is counted of the flags for verbosity. -/
def maxVerbosity : Nat := 255

namespace Given

/-- Nothing. -/
def empty : Given := ⟨none, none, none, none, none, 0⟩

/-- A path; it may not be empty. -/
def path (text : String) : Except LineError String :=
  if text.isEmpty then .error .invalidValue else .ok text

/-- A number of milliseconds; a plus may stand before it. -/
def interval? (text : String) : Option Nat := do
  let digits := match text.toList with
    | '+' :: rest => rest
    | cs => cs
  if digits.isEmpty || !digits.all Char.isDigit then none
  let n := Decimal.value digits
  if n < Nat.pow 2 64 then return n else none

/-- A value for what has none yet. -/
def once {α : Type} (old : Option α) (new : Except LineError α) :
    Except LineError (Option α) :=
  match old with
  | some _ => .error .argumentConflict
  | none => new.map some

/-- Give a setting its value. -/
def set (g : Given) (setting : Setting) (text : String) : Except LineError Given := do
  match setting with
  | .config => return { g with config := ← once g.config (path text) }
  | .endpoint => return { g with endpoint := ← once g.endpoint (.ok text) }
  | .logFormat =>
    let format := match LogFormat.ofName? text with
      | some f => .ok f
      | none => .error .invalidValue
    return { g with logFormat := ← once g.logFormat format }
  | .interval =>
    let ms := match interval? text with
      | some n => if minInterval ≤ n then .ok n else .error .valueValidation
      | none => .error .valueValidation
    return { g with interval := ← once g.interval ms }
  | .file => return { g with file := ← once g.file (path text) }

end Given

/-- The options that may stand at one place: before the command, or after it. -/
structure Level where
  command : Option Subcommand
  deriving DecidableEq, Repr, Inhabited

namespace Level

/-- The setting of a long name. -/
def setting? (l : Level) : String → Option Setting
  | "config" => some .config
  | "endpoint" => some .endpoint
  | "log-format" => some .logFormat
  | "interval" => if l.command = some .watch then some .interval else none
  | _ => none

/-- The flag of a long name. The version is not asked for after a command. -/
def flag? (l : Level) : String → Option Flag
  | "verbose" => some .verbose
  | "help" => some .help
  | "version" => if l.command.isNone then some .version else none
  | _ => none

/-- The flag of a letter. -/
def shortFlag? (l : Level) : Char → Option Flag
  | 'v' => some .verbose
  | 'h' => some .help
  | 'V' => if l.command.isNone then some .version else none
  | _ => none

end Level

/-- The arguments of one side as far as they are read. -/
structure Scan where
  given : Given
  /-- The setting read last, with its value once that is read, too. -/
  pending : Option (Setting × Option String)
  /-- Whether a file was named. -/
  hasFile : Bool
  deriving DecidableEq, Repr, Inhabited

namespace Scan

/-- Nothing read. -/
def empty : Scan := ⟨.empty, none, false⟩

/-- Whether the next argument is the value of a setting. -/
def awaits (s : Scan) : Bool :=
  match s.pending with
  | some (_, none) => true
  | _ => false

/-- Give the pending setting its value. -/
def settle (s : Scan) : Except LineError Scan :=
  match s.pending with
  | none => .ok s
  | some (_, none) => .error .invalidValue
  | some (setting, some text) => do
    return { s with given := ← s.given.set setting text, pending := none }

/-- A flag. -/
def flag (s : Scan) (f : Flag) : Except LineError Scan := do
  let s ← s.settle
  match f with
  | .verbose => return { s with given.verbose := min (s.given.verbose + 1) maxVerbosity }
  | .help => throw .help
  | .version => throw .version

/-- A setting, with a value if that is glued to it. -/
def setting (s : Scan) (o : Setting) (value : Option String) : Except LineError Scan := do
  let s ← s.settle
  match value with
  | some text => return { s with given := ← s.given.set o text }
  | none => return { s with pending := some (o, none) }

/-- The name of a long option, and the value after its sign of equality. -/
def splitLong (cs : List Char) : String × Option String :=
  (String.ofList (cs.takeWhile (· ≠ '=')),
    match cs.dropWhile (· ≠ '=') with
    | _ :: value => some (String.ofList value)
    | [] => none)

/-- A long option, without its dashes. -/
def long (s : Scan) (l : Level) (cs : List Char) : Except LineError Scan :=
  let (name, value) := splitLong cs
  match l.setting? name, l.flag? name with
  | some o, _ => s.setting o value
  | none, some f => if value.isSome then .error .tooManyValues else s.flag f
  | none, none => .error .unknownArgument

/-- Short options, without their dash. -/
def shorts (l : Level) (s : Scan) : List Char → Except LineError Scan
  | [] => .ok s
  | 'c' :: rest =>
    s.setting .config (match rest with
      | [] => none
      | '=' :: value => some (String.ofList value)
      | value => some (String.ofList value))
  | c :: rest =>
    match l.shortFlag? c with
    | some f => do shorts l (← s.flag f) rest
    | none => .error .unknownArgument

end Scan

/-- The answer to the word for help and the words after it. -/
def helpOn : List String → LineError
  | [] => .help
  | [word] => if word = "help" ∨ (Subcommand.ofName? word).isSome then .help else .invalidSubcommand
  | _ => .invalidSubcommand

/-- How the arguments before a command end: with a command and what follows, or without one. -/
abbrev Entered := Option (Subcommand × List String)

/-- An argument that is no option: a command's word, or a file. -/
def plainArg (l : Level) (trailing : Bool) (s : Scan) (arg : String) : Except LineError Scan :=
  match l.command with
  | none =>
    if trailing ∧ (arg = "help" ∨ (Subcommand.ofName? arg).isSome) then .error .unknownArgument
    else .error .invalidSubcommand
  | some _ =>
    if s.hasFile then .error .unknownArgument
    else do return { ← s.settle with pending := some (.file, some arg), hasFile := true }

/-- Read arguments up to a command or their end. After two dashes, `trailing`,
no argument is an option. -/
def readArgs (l : Level) (trailing : Bool) (s : Scan) :
    List String → Except LineError (Scan × Entered)
  | [] => .ok (s, none)
  | arg :: rest =>
    if trailing then do readArgs l true (← plainArg l true s arg) rest
    else if l.command.isNone ∧ !s.awaits ∧ arg = "help" then .error (helpOn rest)
    else
      match (if l.command.isNone ∧ !s.awaits then Subcommand.ofName? arg else none) with
      | some c => .ok (s, some (c, rest))
      | none =>
        match arg.toList with
        | ['-', '-'] => readArgs l true s rest
        | '-' :: '-' :: cs => do readArgs l false (← s.long l cs) rest
        | '-' :: c :: cs => do readArgs l false (← s.shorts l (c :: cs)) rest
        | _ =>
          match s.pending with
          | some (o, none) => readArgs l false { s with pending := some (o, some arg) } rest
          | _ => do readArgs l false (← plainArg l false s arg) rest

/-- What the command line asks for. -/
structure Invocation where
  command : Subcommand
  file : String
  /-- Milliseconds between two looks at the file. -/
  interval : Option Nat
  config : Option String
  endpoint : Option String
  verbose : Nat
  logFormat : LogFormat
  deriving DecidableEq, Repr, Inhabited

namespace Invocation

/-- The values of both sides; those after the command win. -/
def ofGiven (c : Subcommand) (file : String) (before after : Given) : Invocation where
  command := c
  file := file
  interval := if c = .watch then some (after.interval.getD defaultInterval) else none
  config := after.config.or before.config
  endpoint := after.endpoint.or before.endpoint
  verbose := if after.verbose = 0 then before.verbose else after.verbose
  logFormat := (after.logFormat.or before.logFormat).getD .pretty

/-- The values after the command, the file among them. -/
def afterCommand (c : Subcommand) (args : List String) : Except LineError (Given × String) := do
  let (s, _) ← readArgs ⟨some c⟩ false .empty args
  let s ← s.settle
  match s.given.file with
  | some file => return (s.given, file)
  | none => throw .missingRequiredArgument

/-- Read the arguments of the program. -/
def ofArgs (args : List String) : Except LineError Invocation := do
  match ← readArgs ⟨none⟩ false .empty args with
  | (s, some (c, rest)) =>
    let (after, file) ← afterCommand c rest
    return ofGiven c file (← s.settle).given after
  | (s, none) =>
    if (← s.settle).given = .empty then throw .helpOnMissing else throw .missingSubcommand

end Invocation

end LiveScene.Command
