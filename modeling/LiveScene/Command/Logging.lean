import LiveScene.Json.Printer
import LiveScene.Live.Journal

/-!
# How much to log, and in which form

The verbosity of the command line says how much the program's own parts log;
all else logs warnings. `LogConfig.line?` is the line of an entry of the
journal, if its level is logged.
-/

namespace LiveScene.Command

/-- The form of log lines. -/
inductive LogFormat where
  | pretty
  | compact
  | json
  deriving DecidableEq, Repr, Inhabited

namespace LogFormat

/-- The name of the form. -/
def name : LogFormat → String
  | pretty => "pretty"
  | compact => "compact"
  | json => "json"

/-- The name with a capital. -/
def title : LogFormat → String
  | pretty => "Pretty"
  | compact => "Compact"
  | json => "Json"

/-- The form of a name that is written as it is. -/
def ofName? : String → Option LogFormat
  | "pretty" => some pretty
  | "compact" => some compact
  | "json" => some json
  | _ => none

/-- The form of a name, capital or small, or the wording of the error. -/
def parse (text : String) : Except String LogFormat :=
  let small := String.ofList (text.toList.map Char.toLower)
  match ofName? small with
  | some f => .ok f
  | none => .error ("unknown log format '" ++ small ++ "'")

end LogFormat

/-- What is logged and how. -/
structure LogConfig where
  level : LogLevel
  format : LogFormat
  /-- Whether lines are coloured. -/
  ansi : Bool
  /-- Whether lines name the part they come from. -/
  target : Bool
  deriving DecidableEq, Repr, Inhabited

namespace LogConfig

/-- What holds where nothing is said. -/
def default : LogConfig := ⟨.info, .pretty, true, false⟩

/-- The configuration of a verbosity. -/
def ofVerbosity (n : Nat) : LogConfig := { default with level := .ofVerbosity n }

/-- The parts of the program. -/
def targets : List String :=
  ["implicit_live", "implicit_live_cli", "implicit_sandbox", "implicit_diagnostics",
    "implicit_scene"]

/-- The levels of all parts in one text: warnings for what is not listed. -/
def directive (c : LogConfig) : String :=
  ",".intercalate ("warn" :: targets.map (· ++ "=" ++ c.level.name))

/-- One value of an entry. -/
def fieldText : String × Json → String
  | (name, .str s) => name ++ "=" ++ s
  | (name, v) => name ++ "=" ++ v.print

/-- The line of an entry. -/
def line? (c : LogConfig) (e : Live.Entry) : Option String :=
  if c.level.rank < e.event.level.rank then none
  else
    match c.format with
    | .json => some e.toJson.print
    | .pretty | .compact =>
      some (" ".intercalate
        (e.event.level.title :: e.event.message :: e.event.details.map fieldText))

end LogConfig

end LiveScene.Command
