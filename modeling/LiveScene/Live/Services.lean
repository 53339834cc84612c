import LiveScene.Live.Pipeline
import LiveScene.Sandbox.Engine

/-!
# The services of a pipeline

A service answers a call after a delay, and may have something noted before
it answers: under the number of the submission, or without a number where a
script prints. `compilerAnswer` and `sandboxAnswer` are the answers of the
compiler and the sandbox of settings.

`Pipeline.submitting` takes one source through them as far as they go, and
then asks the renderer.
-/

namespace LiveScene.Live

open Sandbox Compiler Scene

/-- Something to note: whether it belongs to the submission that called, and what. -/
structure Note where
  own : Bool
  event : Event
  deriving DecidableEq, Repr, Inhabited

/-- The line of the journal for a note during a submission. -/
def Note.entry (n : Note) (seq : Nat) : Entry := ⟨if n.own then some seq else none, n.event⟩

/-- An answer, how long it takes, and what is noted before. -/
structure Answered (α : Type) where
  delay : Nat
  notes : List Note
  value : α

namespace Answered

/-- An answer given at once. -/
def atOnce {α : Type} (a : α) : Answered α := ⟨0, [], a⟩

/-- The same answer in another form. -/
def map {α β : Type} (f : α → β) (a : Answered α) : Answered β := ⟨a.delay, a.notes, f a.value⟩

end Answered

/-- The three services a submission asks. -/
structure Services where
  compile : String → Answered (Except CompileError Compilation)
  execute : String → Answered (Except SandboxError Result)
  render : RenderRequest → Answered Rendered

/-- The answer of a compiler with its options to a source. -/
def compilerAnswer (o : Options) (source : String) : Except CompileError Compilation :=
  compile? o .implicit source

/-- The answer of a sandbox with its settings to code. -/
def sandboxAnswer (c : Sandbox.Config) (code : String) :
    Answered (Except SandboxError Result) :=
  let e := evaluate c false code
  let printed := e.printed.map fun t => ⟨false, .printed t⟩
  match e.outcome with
  | none => ⟨0, printed ++ [⟨true, .timedOut c.timeoutMs⟩], .error (.timeout c.timeoutMs)⟩
  | some o =>
    let hidden : List Note := match o, o.result with
      | .faulted f, .error _ => [⟨true, .hidden f.trace⟩]
      | _, _ => []
    ⟨0, printed ++ hidden, o.result⟩

namespace Pipeline

/-- The notes of a service, then its answer. -/
def receive (p : Pipeline) (seq : Nat) (notes : List Note) (answer : Happening) : Pipeline :=
  (p.run (notes.map fun n => .noted (n.entry seq))).step answer

/-- Submit a source and take it as far as the answers of a compiler and a sandbox go. -/
def consultWith (p : Pipeline) (compiled : Except CompileError Compilation)
    (execute : String → Answered (Except SandboxError Result)) (source : String) : Pipeline :=
  let p := p.submit source
  let seq := p.latest
  let p := p.step (.compiled seq compiled)
  match (p.submission? seq).map Submission.phase with
  | some (.executing code) =>
    let a := execute code
    p.receive seq a.notes (.executed seq a.value)
  | _ => p

/-- Submit a source and take it as far as the compiler and the sandbox of settings go. -/
def consult (p : Pipeline) (s : Settings) (source : String) : Pipeline :=
  p.consultWith (compilerAnswer s.compiler source) (sandboxAnswer s.sandbox) source

/-- The request that the newest submission waits for. -/
def awaited? (p : Pipeline) : Option RenderRequest := do
  match (← p.submission? p.latest).phase with
  | .rendering request => some request
  | _ => none

/-- The newest submission goes on with what came of its request. -/
def receiveRender (p : Pipeline) (a : Attempt) : Pipeline :=
  p.receive p.latest (if a.unsent then [⟨true, .unsent⟩] else []) (.rendered p.latest a.outcome)

/-- Ask the renderer of settings, if the newest submission waits for it. -/
def asking (p : Pipeline) (r : RenderSettings) : Asking Pipeline :=
  match p.awaited? with
  | none => .done p
  | some request => (ask r request).map p.receiveRender

/-- Submit a source under settings and take it to its end. -/
def submitting (p : Pipeline) (s : Settings) (source : String) : Asking Pipeline :=
  (p.consult s source).asking s.render

end Pipeline

end LiveScene.Live
