import LiveScene.Live.Services

/-!
# Checking a script

A check compiles and executes a script and renders nothing. Its settings are
taken as they are.
-/

namespace LiveScene.Command

open Diagnostics Sandbox Compiler Live

/-- What a check finds. -/
inductive CheckOutput where
  /-- The compiler found errors; nothing was executed. -/
  | diagnostics (errors : ErrorBundle)
  | executed (result : Result)
  deriving Repr, Inhabited

namespace CheckOutput

/-- Whether the script leaves exports. -/
def succeeded : CheckOutput → Bool
  | executed r => r.isOk
  | diagnostics _ => false

/-- The JSON form. -/
def toJson : CheckOutput → Json
  | diagnostics b => .obj [("diagnostics", b.toJson)]
  | executed r => .obj [("executed", r.toJson)]

end CheckOutput

/-- What ends a check without an output. -/
inductive CheckError where
  | compile (error : CompileError)
  | sandbox (error : SandboxError)
  deriving DecidableEq, Repr

/-- The wording of the error. -/
def CheckError.message : CheckError → String
  | compile e => e.message
  | sandbox e => e.message

/-- A check: its output, and what was noted. -/
structure CheckTrace where
  output : Except CheckError CheckOutput
  journal : List Entry

/-- Check a source, given the answers of the compiler and the sandbox. -/
def checkWith (compiled : Except CompileError Compilation)
    (execute : String → Answered (Except SandboxError Result)) (source : String) : CheckTrace :=
  match compiled with
  | .error e => ⟨.error (.compile e), []⟩
  | .ok c =>
    if c.hasDiagnostics then
      ⟨.ok (.diagnostics
        (.ofCompilation (classifyAll source c.grammar) (classifyAll source c.semantic))), []⟩
    else
      let a := execute c.emitted
      ⟨match a.value with
        | .error e => .error (.sandbox e)
        | .ok r => .ok (.executed r), a.notes.map fun n => ⟨none, n.event⟩⟩

/-- Check a source under settings. -/
def check (s : Settings) (source : String) : CheckTrace :=
  checkWith (compilerAnswer s.compiler source) (sandboxAnswer s.sandbox) source

end LiveScene.Command
