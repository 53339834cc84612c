import LiveScene.Command.Check
import LiveScene.Command.Line
import LiveScene.Command.Watch
import LiveScene.Json.Printer

/-!
# The program as a whole

From the arguments to the exit code: options are read, settings are loaded,
the source is read, and the command is carried out. A bad command line exits
with 2, whatever else fails with 1, a run or a check of a script with errors
too. Files are given as a function, and what has to be asked of the renderer
is left to whoever carries the program out.
-/

namespace LiveScene.Command

open Live Scene

/-- The text of a file, if it can be read. -/
abbrev Files := String → Option String

/-- How the program ends: with an exit code, after printing a value or a complaint. -/
structure Exit where
  code : Nat
  printed : Option Json
  complaint : Option String
  journal : List Entry
  deriving Repr, Inhabited

namespace Exit

/-- An end with nothing but a complaint. -/
def failure (code : Nat) (complaint : String) : Exit := ⟨code, none, some complaint, []⟩

/-- The end of a command that has an output. -/
def ofOutput (succeeded : Bool) (output : Json) (journal : List Entry) : Exit :=
  ⟨if succeeded then 0 else 1, some output, none, journal⟩

/-- The end of a run. -/
def ofRun (t : RunTrace) : Exit :=
  match t.output with
  | .error e => ⟨1, none, some e.message, t.journal⟩
  | .ok o => ofOutput o.succeeded o.toJson t.journal

/-- The end of a check. -/
def ofCheck (t : CheckTrace) : Exit :=
  match t.output with
  | .error e => ⟨1, none, some e.message, t.journal⟩
  | .ok o => ofOutput o.succeeded o.toJson t.journal

end Exit

/-- What the program does. -/
inductive Conduct where
  | ends (exit : Asking Exit)
  /-- It watches a file, looking at it every so many milliseconds. -/
  | watches (settings : Settings) (file : String) (interval : Nat) (watching : Watching)

namespace Conduct

/-- An end with nothing but a complaint. -/
def fails (code : Nat) (complaint : String) : Conduct := .ends (.done (.failure code complaint))

end Conduct

/-- The file of settings that a command line names. -/
def settingsFile (files : Files) : Option String → SettingsFile
  | none => .unnamed
  | some path => (files path).elim .missing .holding

/-- Carry out a command on the text of its file. -/
def carryOut (files : Files) (s : Settings) (i : Invocation) : Conduct :=
  match i.command with
  | .watch =>
    match Watching.begin? s (files i.file) with
    | .error e => .fails 1 e.message
    | .ok w => .watches s i.file (i.interval.getD defaultInterval) w
  | .run =>
    match files i.file with
    | none => .fails 1 WatchError.unreadable.message
    | some source => .ends ((run s source).map .ofRun)
  | .check =>
    match files i.file with
    | none => .fails 1 WatchError.unreadable.message
    | some source => .ends (.done (.ofCheck (check s source)))

/-- What the program does with its arguments. -/
def conduct (files : Files) (args : List String) : Conduct :=
  match Invocation.ofArgs args with
  | .error e => .fails e.exitCode e.name
  | .ok i =>
    match Settings.load (settingsFile files i.config) i.endpoint with
    | .error e => .fails 1 e.message
    | .ok s => carryOut files s i

end LiveScene.Command
