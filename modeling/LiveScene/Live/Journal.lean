import LiveScene.Json
import LiveScene.Live.Stage
import LiveScene.Log.Level

/-!
# What is noted of submissions

An `Event` is something worth a line in the log, with the values that belong
to it. The journal of a pipeline lists events in order, each under the number
of its submission or, where it belongs to none, without a number.
-/

namespace LiveScene.Live

/-- Something worth noting. -/
inductive Event where
  /-- From one stage to the next. -/
  | moved (source target : Stage)
  /-- The compiler found this many errors of either kind. -/
  | diagnosed (grammar semantic : Nat)
  /-- The script failed at a place. -/
  | failed (line col : Nat)
  /-- The script failed without a place. -/
  | unclassified (message : String)
  /-- The sandbox gave no result in time. -/
  | incomplete
  /-- So many figures were rendered. -/
  | rendered (figures : Nat)
  /-- The renderer refused. -/
  | refused (message : String)
  /-- The renderer's answer, of so many bytes, is none. -/
  | mismatched (bytes : Nat)
  /-- A newer submission has started. -/
  | overtaken (latest : Nat) (stage : Stage)
  /-- No answer came from the renderer. -/
  | unsent
  /-- A failure of the sandbox is not shown. -/
  | hidden (trace : String)
  /-- A context was given up after so many milliseconds. -/
  | timedOut (ms : Nat)
  /-- The script printed a text. -/
  | printed (text : String)
  /-- A submission has ended. -/
  | finished (seq : Nat) (stage : Stage)
  deriving DecidableEq, Repr, Inhabited

namespace Event

/-- The level an event is logged at. -/
def level : Event → LogLevel
  | moved .. | diagnosed .. | failed .. | rendered .. | refused .. | printed .. | finished .. =>
    .info
  | unclassified .. | incomplete | overtaken .. | unsent | hidden .. | timedOut .. => .warn
  | mismatched .. => .error

/-- The text of an event. -/
def message : Event → String
  | moved .. => "stage"
  | diagnosed .. => "compilation reported diagnostics, not executing"
  | failed .. => "execution failed"
  | unclassified m => m
  | incomplete => "execution did not complete"
  | rendered .. => "render complete"
  | refused m => m
  | mismatched .. => "render response is not a render result"
  | overtaken .. => "newer submission started, dropping stale result"
  | unsent => "render request failed"
  | hidden .. => "dropping sandbox failure without a source position"
  | timedOut .. => "execution timed out, discarding context"
  | printed text => text
  | finished .. => "submission finished"

/-- The values of an event. -/
def details : Event → List (String × Json)
  | moved s t => [("from", .str s.title), ("to", .str t.title)]
  | diagnosed g s => [("syntax", .nat g), ("semantic", .nat s)]
  | failed l c => [("line", .nat l), ("col", .nat c)]
  | rendered n => [("figures", .nat n)]
  | mismatched n => [("body_len", .nat n)]
  | overtaken n s => [("latest", .nat n), ("stage", .str s.title)]
  | hidden t => [("trace", .str t)]
  | timedOut n => [("timeout_ms", .nat n)]
  | finished n s => [("seq", .nat n), ("stage", .str s.title)]
  | unclassified _ | incomplete | refused _ | unsent | printed _ => []

end Event

/-- A line of the journal. -/
structure Entry where
  /-- The number of the submission it belongs to. -/
  seq : Option Nat
  event : Event
  deriving DecidableEq, Repr, Inhabited

namespace Entry

/-- The JSON form. -/
def toJson (e : Entry) : Json :=
  .obj [("level", .str e.event.level.title), ("seq", .ofOption .nat e.seq),
    ("fields", .obj (("message", .str e.event.message) :: e.event.details))]

end Entry

end LiveScene.Live
