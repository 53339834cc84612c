import LiveScene.Json

/-!
# The stages of a submission

A submission is compiled, executed and rendered, and ends `ready`, `blocked`
in one of the three stages, or `superseded` by a newer one. `Stage.allowed`
is the table of the steps between stages; a stage is `terminal` if it allows
none.
-/

namespace LiveScene.Live

/-- Where a submission got stuck. -/
inductive BlockReason where
  | diagnostics
  | runtime
  | render
  deriving DecidableEq, Repr, Inhabited

namespace BlockReason

/-- The name of the reason. -/
def name : BlockReason → String
  | diagnostics => "diagnostics"
  | runtime => "runtime"
  | render => "render"

/-- The reason as a title, for messages. -/
def title : BlockReason → String
  | diagnostics => "Diagnostics"
  | runtime => "Runtime"
  | render => "Render"

/-- Decode a reason. -/
def ofJson? (v : Json) : Option BlockReason := do
  match ← v.unitCase? with
  | "diagnostics" => some diagnostics
  | "runtime" => some runtime
  | "render" => some render
  | _ => none

end BlockReason

/-- How far a submission has come. -/
inductive Stage where
  | idle
  | compiling
  | executing
  | rendering
  | ready
  | blocked (reason : BlockReason)
  | superseded
  deriving DecidableEq, Repr, Inhabited

namespace Stage

/-- The stages that may follow. -/
def allowed : Stage → List Stage
  | idle => [compiling]
  | compiling => [executing, blocked .diagnostics, superseded]
  | executing => [rendering, blocked .runtime, superseded]
  | rendering => [ready, blocked .render, superseded]
  | ready | blocked _ | superseded => []

/-- Whether no stage follows. -/
def terminal (s : Stage) : Bool := s.allowed.isEmpty

/-- Whether `t` may follow. -/
def allows (s t : Stage) : Bool := s.allowed.contains t

/-- The stage as a title, for messages. -/
def title : Stage → String
  | idle => "Idle"
  | compiling => "Compiling"
  | executing => "Executing"
  | rendering => "Rendering"
  | ready => "Ready"
  | blocked r => "Blocked(" ++ r.title ++ ")"
  | superseded => "Superseded"

/-- The JSON form: a name, or the reason under the name `blocked`. -/
def toJson : Stage → Json
  | idle => .str "idle"
  | compiling => .str "compiling"
  | executing => .str "executing"
  | rendering => .str "rendering"
  | ready => .str "ready"
  | blocked r => .obj [("blocked", .str r.name)]
  | superseded => .str "superseded"

/-- The stage of a name. -/
def ofName? : String → Option Stage
  | "idle" => some idle
  | "compiling" => some compiling
  | "executing" => some executing
  | "rendering" => some rendering
  | "ready" => some ready
  | "superseded" => some superseded
  | _ => none

/-- Decode a stage. -/
def ofJson? (v : Json) : Option Stage := do
  match ← v.case? with
  | ("blocked", some reason) => return blocked (← BlockReason.ofJson? reason)
  | _ => ofName? (← v.unitCase?)

end Stage

/-- A step that the table does not allow. -/
structure IllegalStep where
  source : Stage
  target : Stage
  deriving DecidableEq, Repr, Inhabited

namespace IllegalStep

/-- The wording of the error. -/
def message (e : IllegalStep) : String :=
  "illegal stage transition " ++ e.source.title ++ " -> " ++ e.target.title

end IllegalStep

/-- The step from one stage to the next, or the error that it is not allowed. -/
def Stage.advance (s t : Stage) : Except IllegalStep Stage :=
  if s.allows t then .ok t else .error ⟨s, t⟩

end LiveScene.Live
