import LiveScene.Live.Rehearsal

/-!
# Services that answer from tables

Stand-ins for the compiler, the sandbox and the renderer, for rehearsals: each
looks its answer up in a table, by the source or by the code. What a table
does not list succeeds plainly and at once.
-/

namespace LiveScene.Live

open Diagnostics Scene Sandbox Compiler

/-- The exports of code that stands for itself. -/
def echoExports (code : String) : Exports := .ofList [(Exports.defaultName, .str code)]

/-- A figure of a plain size. -/
def plainFigure (svg : String) : RenderedFigure := ⟨svg, 0, 0, 100, 100⟩

/-- A render of one plain figure. -/
def plainRender (svg : String) : Rendered := .ok ⟨[plainFigure svg], .null⟩

/-- Answers by source or code. -/
structure Tables where
  compiler : List (String × Answered (Except CompileError Compilation))
  executor : List (String × Answered (Except SandboxError Result))
  renderer : List (String × Answered Rendered)

namespace Tables

/-- The services of tables. -/
def services (t : Tables) : Services where
  compile source := (t.compiler.lookup source).getD (.atOnce (.ok (.clean source)))
  execute code := (t.executor.lookup code).getD (.atOnce (.ok (.ok (echoExports code))))
  render request := (t.renderer.lookup request.source).getD (.atOnce (plainRender request.source))

/-- The slots of an entry. -/
def slots? (v : Json) : Option Json.Slots := v.object? []

/-- A slot with a default for when it is missing or `null`. -/
def orElse {α : Type} (default : α) (decode : Json → Option α) (slot : Option Json) : Option α :=
  (Json.optional decode slot).map (·.getD default)

/-- Decode how the compiler answers. -/
def compilerEntry? (source : String) (v : Json) :
    Option (Answered (Except CompileError Compilation)) := do
  let slot ← slots? v
  let delay ← orElse 0 Json.size? (slot "delay")
  let target ← Json.optional Json.str? (slot "unsupported_target")
  let worker ← Json.optional Json.str? (slot "worker_error")
  let emitted ← orElse source Json.str? (slot "emitted")
  let findings := orElse [] (Json.list? Diagnostic.ofJson?)
  let grammar ← findings (slot "syntax")
  let semantic ← findings (slot "semantic")
  let value := match target, worker with
    | some t, _ => .error (.unsupportedTarget t)
    | none, some m => .error (.worker m)
    | none, none => .ok ⟨emitted, grammar, semantic⟩
  return ⟨delay, [], value⟩

/-- Decode how the sandbox answers. -/
def executorEntry? (code : String) (v : Json) :
    Option (Answered (Except SandboxError Result)) := do
  let slot ← slots? v
  let delay ← orElse 0 Json.size? (slot "delay")
  let failure ← Json.optional SandboxError.ofJson? (slot "error")
  let record ← Json.optional ErrorRecord.ofJson? (slot "err")
  let exports ← orElse (echoExports code) Exports.ofJson? (slot "exports")
  let value := match failure, record with
    | some e, _ => .error e
    | none, some r => .ok (.error r)
    | none, none => .ok (.ok exports)
  return ⟨delay, [], value⟩

/-- Decode how the renderer answers: by a status and a body. -/
def rendererEntry? (_ : String) (v : Json) : Option (Answered Rendered) := do
  let slot ← slots? v
  let delay ← orElse 0 Json.size? (slot "delay")
  let status ← orElse 200 (Json.natUpTo? 65535) (slot "status")
  let body ← orElse "[]" Json.str? (slot "body")
  return ⟨delay, [], answerResult status body⟩

/-- Decode the entries of a table; each is told its name. -/
def entries? {α : Type} (decode : String → Json → Option α) : Json → Option (List (String × α))
  | .obj fields => fields.mapM fun (k, v) => do return (k, ← decode k v)
  | _ => none

/-- Decode the tables, each of which may be missing. -/
def ofJson? (v : Json) : Option Tables := do
  let slot ← slots? v
  return {
    compiler := ← orElse [] (entries? compilerEntry?) (slot "compiler")
    executor := ← orElse [] (entries? executorEntry?) (slot "executor")
    renderer := ← orElse [] (entries? rendererEntry?) (slot "renderer") }

end Tables

end LiveScene.Live
