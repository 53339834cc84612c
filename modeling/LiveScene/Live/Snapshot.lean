import LiveScene.Diagnostics.Record
import LiveScene.Scene.Render

/-!
# Snapshots of what is shown

A `Snapshot` is everything a viewer needs: the source, the current output,
the figures of the last success, and notes for debugging. It is never
changed; a `Transition` makes the next one from it. An `Output` with figures
also becomes the last success, and a timing of `null` clears the old one.
-/

namespace LiveScene.Live

open Diagnostics Scene

/-- What the last submission came to. -/
inductive Output where
  | ok (figures : List RenderedFigure)
  | err (errors : ErrorBundle)
  deriving DecidableEq, Repr

instance : Inhabited Output := ⟨.ok []⟩

namespace Output

/-- Whether there are figures to show. -/
def isOk : Output → Bool
  | ok _ => true
  | err _ => false

/-- The errors, if there are figures none. -/
def errors? : Output → Option ErrorBundle
  | ok _ => none
  | err b => some b

/-- The JSON form, its case named under `kind`. -/
def toJson : Output → Json
  | ok figures => .obj [("kind", .str "ok"), ("figures", .ofList RenderedFigure.toJson figures)]
  | err b => .obj [("kind", .str "err"), ("errors", b.toJson)]

/-- Decode an output. -/
def ofJson? (v : Json) : Option Output := do
  let fields : String → List String
    | "ok" => ["figures"]
    | "err" => ["errors"]
    | _ => []
  match ← v.variant? "kind" fields with
  | ("ok", slot) =>
    return ok (← Json.required (Json.list? RenderedFigure.ofJson?) (slot "figures"))
  | ("err", slot) => return err (← Json.required ErrorBundle.ofJson? (slot "errors"))
  | _ => none

end Output

/-- What was executed and what it left. -/
structure DebugInfo where
  emitted : String
  defaultExport : Option Json
  deriving Repr, Inhabited

namespace DebugInfo

/-- The JSON form. -/
def toJson (d : DebugInfo) : Json :=
  .obj [("emitted", .str d.emitted), ("default_export", .ofOption id d.defaultExport)]

/-- Decode notes; a default export that is `null` counts as none. -/
def ofJson? (v : Json) : Option DebugInfo := do
  let slot ← v.record? ["emitted", "default_export"] 2
  return ⟨← Json.required Json.str? (slot "emitted"),
    ← Json.optional (some ·.settled) (slot "default_export")⟩

end DebugInfo

/-- What is shown at one moment. -/
structure Snapshot where
  source : String
  output : Output
  /-- The figures of the last output that had any. -/
  prevOk : List RenderedFigure
  debug : Option DebugInfo
  perf : Option Json
  deriving Repr

/-- One change of a snapshot. -/
inductive Transition where
  | source (text : String)
  | output (o : Output)
  | errors (b : ErrorBundle)
  | debug (d : DebugInfo)
  | perf (v : Json)
  deriving Repr

namespace Snapshot

/-- The script shown at the start. -/
def defaultSource : String := "import \"implicit\" as i;\ni::circle(0, 0, 100)"

/-- The snapshot at the start. -/
def default : Snapshot := ⟨defaultSource, .ok [], [], none, none⟩

instance : Inhabited Snapshot := ⟨default⟩

/-- The next snapshot. -/
def apply (s : Snapshot) : Transition → Snapshot
  | .source text => { s with source := text }
  | .output (.ok figures) => { s with output := .ok figures, prevOk := figures }
  | .output (.err b) => { s with output := .err b }
  | .errors b => { s with output := .err b }
  | .debug d => { s with debug := some d }
  | .perf v => { s with perf := if v.isNull then none else some v }

/-- The JSON form. -/
def toJson (s : Snapshot) : Json :=
  .obj [("source", .str s.source), ("output", s.output.toJson),
    ("prev_ok", .ofList RenderedFigure.toJson s.prevOk),
    ("debug", .ofOption DebugInfo.toJson s.debug), ("perf", .ofOption id s.perf)]

/-- Decode a snapshot. -/
def ofJson? (v : Json) : Option Snapshot := do
  let slot ← v.record? ["source", "output", "prev_ok", "debug", "perf"] 5
  let source ← Json.required Json.str? (slot "source")
  let output ← Json.required Output.ofJson? (slot "output")
  let prevOk ← Json.required (Json.list? RenderedFigure.ofJson?) (slot "prev_ok")
  let debug ← Json.optional DebugInfo.ofJson? (slot "debug")
  let perf ← Json.optional (some ·.settled) (slot "perf")
  return ⟨source, output, prevOk, debug, perf⟩

end Snapshot

end LiveScene.Live
