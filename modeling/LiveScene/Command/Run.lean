import LiveScene.Live.Services

/-!
# Running a script

A run submits a script once to a pipeline of its own and answers with the
report and what is shown at the end. Settings that cannot be worked with, a
target without a compiler among them, are refused before.
-/

namespace LiveScene.Command

open Sandbox Compiler Live Scene

/-- The first reason why no pipeline can be built from settings. -/
def pipelineFault? (s : Settings) : Option SettingsFault :=
  s.fault?.or
    (if s.compiler.target = scriptTarget then none
      else some (.target (.unsupportedTarget s.compiler.target)))

/-- What a run ends with. -/
structure RunOutput where
  report : Report
  state : Snapshot
  deriving Repr

namespace RunOutput

/-- Whether the script was rendered. -/
def succeeded (o : RunOutput) : Bool := o.report.stage = .ready

/-- The JSON form. -/
def toJson (o : RunOutput) : Json :=
  .obj [("report", o.report.toJson), ("state", o.state.toJson)]

end RunOutput

/-- What ends a run without an output. -/
inductive RunError where
  | invalid (fault : SettingsFault)
  | submit (error : SubmitError)
  /-- The submission has not come to an end. -/
  | unfinished
  deriving DecidableEq, Repr

/-- The wording of the error. -/
def RunError.message : RunError → String
  | invalid f => f.message
  | submit e => e.message
  | unfinished => "the submission has not ended"

/-- A run: its output, what was sent to the renderer, and what was noted. -/
structure RunTrace where
  output : Except RunError RunOutput
  requests : List RenderRequest
  journal : List Entry

/-- The end of a run from the pipeline after its submission. -/
def RunTrace.ofPipeline (p : Pipeline) : RunTrace :=
  match p.result? p.latest with
  | some (.ok r) =>
    ⟨.ok ⟨r, p.store.current⟩, p.renderRequests,
      p.journal ++ [⟨none, .finished r.seq r.stage⟩]⟩
  | some (.error e) => ⟨.error (.submit e), p.renderRequests, p.journal⟩
  | none => ⟨.error .unfinished, p.renderRequests, p.journal⟩

/-- Run a source under settings, given the answers of the compiler and the sandbox. -/
def runWith (s : Settings) (compiled : Except CompileError Compilation)
    (execute : String → Answered (Except SandboxError Result)) (source : String) :
    Asking RunTrace :=
  match pipelineFault? s with
  | some f => .done ⟨.error (.invalid f), [], []⟩
  | none =>
    (((Pipeline.ofSettings s).consultWith compiled execute source).asking s.render).map
      .ofPipeline

/-- Run a source under settings. -/
def run (s : Settings) (source : String) : Asking RunTrace :=
  runWith s (compilerAnswer s.compiler source) (sandboxAnswer s.sandbox) source

end LiveScene.Command
