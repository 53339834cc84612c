import LiveScene.Command.Run

/-!
# Watching a file

A watch looks at a file again and again. Every content that differs from the
one read before is handed to a task, which submits it in its own time. A look
that fails is passed over and forgets nothing. `Watching.step` takes looks,
the first steps of tasks and what happens to the pipeline in any order.

`Watching.round` is one look with time enough for all that follows, and tells
the lines shown meanwhile.
-/

namespace LiveScene.Command

open Diagnostics Live Scene

/-- The looks at a file so far. -/
structure Watching where
  /-- The content read last. -/
  last : Option String
  /-- The contents handed to tasks, in order. -/
  spawned : List String
  /-- The contents whose tasks have not taken their first step. -/
  waiting : List String
  pipeline : Pipeline

/-- Something that happens while a file is watched. -/
inductive WatchEvent where
  /-- A look at the file: its content, if it could be read. -/
  | looked (content : Option String)
  /-- The task at this place among those that wait takes its first step. -/
  | began (place : Nat)
  /-- Something happens to the pipeline. -/
  | happened (h : Happening)

/-- Why a watch does not begin. -/
inductive WatchError where
  | invalid (fault : SettingsFault)
  | unreadable
  deriving DecidableEq, Repr

/-- The wording of the error. -/
def WatchError.message : WatchError → String
  | invalid f => f.message
  | unreadable => "failed to read the script"

/-- A line shown to whoever watches. -/
inductive ShownLine where
  | submitted (seq : Nat) (stage : Stage)
  | failed
  | skipped
  | rendered (figures : Nat)
  | error (kind : ErrorKind) (record : ErrorRecord)
  deriving DecidableEq, Repr

namespace ShownLine

/-- The kind of an error as a title. -/
def kindTitle : ErrorKind → String
  | .grammar => "Syntax"
  | .semantic => "Semantic"
  | .runtime => "Runtime"
  | .network => "Network"

/-- The JSON form. -/
def toJson : ShownLine → Json
  | submitted seq stage =>
    .obj [("message", .str "submitted"), ("seq", .nat seq), ("stage", .str stage.title)]
  | failed => .obj [("message", .str "submission failed")]
  | skipped => .obj [("message", .str "skipping poll")]
  | rendered n => .obj [("message", .str "rendered"), ("figures", .nat n)]
  | error kind r =>
    .obj [("message", .str r.message), ("kind", .str (kindTitle kind)), ("line", .nat r.line),
      ("col", .nat r.col)]

/-- The lines a notice of a snapshot shows. -/
def ofSnapshot (s : Snapshot) : List ShownLine :=
  match s.output with
  | .ok _ => [rendered s.prevOk.length]
  | .err b => b.toList.map fun (kind, r) => error kind r

/-- The line that the end of a submission shows. -/
def ofResult : Option (Except SubmitError Report) → List ShownLine
  | some (.ok r) => [submitted r.seq r.stage]
  | some (.error _) => [failed]
  | none => []

end ShownLine

namespace Watching

/-- Before the first look. The file must be there. -/
def begin? (s : Settings) (content : Option String) : Except WatchError Watching :=
  match pipelineFault? s with
  | some f => .error (.invalid f)
  | none =>
    if content.isNone then .error .unreadable
    else .ok ⟨none, [], [], .ofSettings s⟩

/-- Look at the file. -/
def look (w : Watching) : Option String → Watching
  | none => w
  | some text =>
    if w.last = some text then w
    else
      { w with
        last := some text
        spawned := w.spawned ++ [text]
        waiting := w.waiting ++ [text] }

/-- What follows from an event. Sources are submitted by tasks alone. -/
def step (w : Watching) : WatchEvent → Watching
  | .looked content => w.look content
  | .began place =>
    match w.waiting[place]? with
    | some text =>
      { w with waiting := w.waiting.eraseIdx place, pipeline := w.pipeline.submit text }
    | none => w
  | .happened (.submitted _) => w
  | .happened h => { w with pipeline := w.pipeline.step h }

/-- What follows from events, one after another. -/
def run (w : Watching) (es : List WatchEvent) : Watching := es.foldl step w

/-- The first task that waits takes its first step, and its submission goes to its end. -/
def serve (s : Settings) (w : Watching) : Option (Asking Watching) :=
  match w.waiting with
  | [] => none
  | text :: rest =>
    some ((w.pipeline.submitting s text).map fun p => { w with waiting := rest, pipeline := p })

/-- One look, after which everything that follows comes to its end: the watch
after it, and the lines shown. -/
def round (s : Settings) (w : Watching) : Option String → Asking (Watching × List ShownLine)
  | none => .done (w, [.skipped])
  | some text =>
    match (w.look (some text)).serve s with
    | none => .done (w.look (some text), [])
    | some asking =>
      asking.map fun w =>
        (w, ShownLine.ofResult (w.pipeline.result? w.pipeline.latest) ++
          ShownLine.ofSnapshot w.pipeline.store.current)

end Watching

end LiveScene.Command
