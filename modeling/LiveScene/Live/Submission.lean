import LiveScene.Compiler.Compilation
import LiveScene.Live.Journal
import LiveScene.Live.Renderer
import LiveScene.Live.Snapshot
import LiveScene.Sandbox.Error

/-!
# One submission

A submission clears the slate and then asks three services in turn: the
compiler, the sandbox and the renderer. Between two answers it waits. A
`Stretch` is what it does without waiting: changes of the shown snapshot, at
most one call, and lines for the journal. `Submission.start`, `compiled`,
`executed` and `rendered` are the four stretches.

After each answer a submission that may be overtaken looks whether it was, and
then ends `superseded` without a further change or call. An answer of the
compiler that is a breakdown ends it before it looks.
-/

namespace LiveScene.Live

open Diagnostics Scene Sandbox Compiler

/-- A call to a service. -/
inductive Call where
  | compile (source : String)
  | execute (code : String)
  | render (request : RenderRequest)
  deriving Repr, Inhabited

/-- What ends a submission without a report. -/
inductive SubmitError where
  | compile (error : CompileError)
  | sandbox (error : SandboxError)
  | mismatch (fault : BodyFault)
  | illegal (step : IllegalStep)
  deriving DecidableEq, Repr

/-- The wording of the error. -/
def SubmitError.message : SubmitError → String
  | compile e => "compilation failed: " ++ e.message
  | sandbox e => "sandbox failed: " ++ e.message
  | mismatch f => "render protocol mismatch: " ++ f.message
  | illegal e => e.message

/-- How a submission ended. -/
structure Report where
  seq : Nat
  stage : Stage
  /-- Whether it changed what is shown after clearing the slate. -/
  published : Bool
  deriving DecidableEq, Repr, Inhabited

/-- The JSON form. -/
def Report.toJson (r : Report) : Json :=
  .obj [("seq", .nat r.seq), ("stage", r.stage.toJson), ("published", .bool r.published)]

/-- What a submission waits for, or how it ended. -/
inductive Phase where
  | compiling
  | executing (emitted : String)
  | rendering (request : RenderRequest)
  | ended (result : Except SubmitError Report)
  /-- Nobody waits for it any more. -/
  | dropped

/-- A source on its way through the services. -/
structure Submission where
  /-- Submissions are numbered in the order they start, from 1 on. -/
  seq : Nat
  source : String
  stage : Stage
  published : Bool
  phase : Phase

/-- What a submission does without waiting. -/
structure Stretch where
  submission : Submission
  transitions : List Transition
  call : Option Call
  events : List Event

namespace Stretch

/-- Nothing done yet. -/
def ofSubmission (s : Submission) : Stretch := ⟨s, [], none, []⟩

/-- Note an event. -/
def note (w : Stretch) (e : Event) : Stretch := { w with events := w.events ++ [e] }

/-- Change the snapshot. -/
def change (w : Stretch) (t : Transition) : Stretch :=
  { w with transitions := w.transitions ++ [t] }

/-- Change the snapshot with a result of the submission. -/
def publish (w : Stretch) (t : Transition) : Stretch :=
  { w.change t with submission.published := true }

/-- End the submission. -/
def close (w : Stretch) (result : Except SubmitError Report) : Stretch :=
  { w with submission.phase := .ended result }

/-- Go to the next stage and on, or end with the error that the table has no such step. -/
def advance (w : Stretch) (target : Stage) (next : Stretch → Stretch) : Stretch :=
  match w.submission.stage.advance target with
  | .error e => w.close (.error (.illegal e))
  | .ok s => next { w.note (.moved w.submission.stage s) with submission.stage := s }

/-- Call a service and wait. -/
def await (w : Stretch) (call : Call) (phase : Phase) : Stretch :=
  { w with call := some call, submission.phase := phase }

/-- End in a stage with a report. -/
def finish (w : Stretch) (target : Stage) : Stretch :=
  w.advance target fun w =>
    w.close (.ok ⟨w.submission.seq, w.submission.stage, w.submission.published⟩)

/-- End because a newer submission has started. -/
def supersede (w : Stretch) (latest : Nat) : Stretch :=
  (w.note (.overtaken latest w.submission.stage)).finish .superseded

/-- Show the errors of the compilation. -/
def blockOnDiagnostics (w : Stretch) (b : ErrorBundle) : Stretch :=
  ((w.note (.diagnosed b.grammar.length b.semantic.length)).publish (.errors b)).finish
    (.blocked .diagnostics)

/-- Show one error of running the script. -/
def blockOnRuntime (w : Stretch) (r : ErrorRecord) : Stretch :=
  (w.publish (.errors (.ofRuntime r))).finish (.blocked .runtime)

end Stretch

/-- The record of a script that ends without a value. -/
def missingDefault : ErrorRecord := .unpositioned "module has no default export"

namespace Submission

/-- Whether a submission has been overtaken. Without the fence none ever is. -/
def isStale (s : Submission) (fence : Bool) (latest : Nat) : Bool := fence && latest ≠ s.seq

/-- Start: clear the slate and ask the compiler. -/
def start (seq : Nat) (source : String) : Stretch :=
  let w := Stretch.ofSubmission ⟨seq, source, .idle, false, .compiling⟩
  ((w.change (.source source)).change (.errors .empty)).advance .compiling
    fun w => w.await (.compile source) .compiling

/-- Go on with the answer of the compiler. -/
def compiled (s : Submission) (fence : Bool) (latest : Nat)
    (answer : Except CompileError Compilation) : Stretch :=
  let w := Stretch.ofSubmission s
  match answer with
  | .error e => w.close (.error (.compile e))
  | .ok c =>
    if s.isStale fence latest then w.supersede latest
    else if c.hasDiagnostics then
      w.blockOnDiagnostics
        (.ofCompilation (classifyAll s.source c.grammar) (classifyAll s.source c.semantic))
    else w.advance .executing fun w => w.await (.execute c.emitted) (.executing c.emitted)

/-- Go on with the exports of the script. -/
def exported (w : Stretch) (emitted : String) (exports : Exports) : Stretch :=
  match exports.default? with
  | none => w.blockOnRuntime missingDefault
  | some scene =>
    let request : RenderRequest := ⟨w.submission.source, scene⟩
    (w.publish (.debug ⟨emitted, some scene⟩)).advance .rendering
      fun w => w.await (.render request) (.rendering request)

/-- Go on with the answer of the sandbox to the emitted code. -/
def executed (s : Submission) (fence : Bool) (latest : Nat) (emitted : String)
    (answer : Except SandboxError Result) : Stretch :=
  let w := Stretch.ofSubmission s
  if s.isStale fence latest then w.supersede latest
  else
    match answer with
    | .ok (.ok exports) => exported w emitted exports
    | .ok (.error r) => (w.note (.failed r.line r.col)).blockOnRuntime r
    | .error (.unclassified m) => (w.note (.unclassified m)).finish (.blocked .runtime)
    | .error e =>
      match e.userRecord? with
      | some r => (w.note .incomplete).blockOnRuntime r
      | none => w.close (.error (.sandbox e))

/-- Go on with the answer of the renderer. -/
def rendered (s : Submission) (fence : Bool) (latest : Nat) (answer : Rendered) : Stretch :=
  let w := Stretch.ofSubmission s
  if s.isStale fence latest then w.supersede latest
  else
    match answer with
    | .ok r =>
      (((w.note (.rendered r.figures.length)).publish (.output (.ok r.figures))).change
        (.perf r.perf)).finish .ready
    | .error (.rejected r) =>
      ((w.note (.refused r.message)).publish (.errors (.ofRuntime r))).finish (.blocked .render)
    | .error (.mismatch f body) =>
      (w.note (.mismatched body.utf8ByteSize)).close (.error (.mismatch f))

end Submission

end LiveScene.Live
