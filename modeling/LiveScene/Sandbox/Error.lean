import LiveScene.Sandbox.ContextId
import LiveScene.Sandbox.Outcome

/-!
# Failures of the sandbox

Outcomes without a record in the source. Only a timeout is the fault of the
script and shown to its author; lost contexts, contexts that could not be
made and a pool that is shut down are faults of the sandbox itself.
-/

namespace LiveScene.Sandbox

open Diagnostics

/-- Why the sandbox gives no result. -/
inductive SandboxError where
  /-- A failure of the script without a place. -/
  | unclassified (message : String)
  /-- No answer in time. -/
  | timeout (ms : Nat)
  /-- The context went away before it answered. -/
  | contextLost (id : String)
  /-- No context could be made. -/
  | spawn (message : String)
  /-- The pool is shut down. -/
  | closed
  deriving DecidableEq, Repr, Inhabited

namespace SandboxError

/-- The wording of the error. -/
def message : SandboxError → String
  | unclassified m => "unclassified sandbox failure: " ++ m
  | timeout ms => "execution timed out after " ++ toString ms ++ "ms"
  | contextLost id => "execution context " ++ id ++ " stopped responding"
  | spawn m => "execution context creation failed: " ++ m
  | closed => "sandbox pool is shut down"

/-- The record to show, for errors that the script causes. -/
def userRecord? : SandboxError → Option ErrorRecord
  | timeout ms => some (.unpositioned (timeout ms).message)
  | _ => none

/-- Whether the sandbox is at fault and not the script. -/
def isInfrastructure : SandboxError → Bool
  | contextLost _ | spawn _ | closed => true
  | unclassified _ | timeout _ => false

/-- Decode an error; its case is named under `kind`. -/
def ofJson? (v : Json) : Option SandboxError := do
  let slot ← v.object? ["kind", "message", "timeout_ms", "id"]
  let text (name : String) : Option String := Json.required Json.str? (slot name)
  match ← text "kind" with
  | "unclassified" => return unclassified (← text "message")
  | "timeout" => return timeout (← Json.required Json.size? (slot "timeout_ms"))
  | "spawn" => return spawn (← text "message")
  | "context_lost" => return contextLost (← idText? (← text "id"))
  | "closed" => return closed
  | _ => none

end SandboxError

/-- The result of an outcome; a fault without a place has none. -/
def Outcome.result : Outcome → Except SandboxError Result
  | .completed e => .ok (.ok e)
  | .faulted f =>
    match f.classify with
    | .classified r => .ok (.error r)
    | .unclassified => .error (.unclassified f.message)

end LiveScene.Sandbox
