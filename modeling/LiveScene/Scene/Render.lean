import LiveScene.Json.Reader

/-!
# Requests to the renderer and its answers

A request carries the source and whatever the script gave as its scene. The
body of an answer is a result with figures and profiling data, or a bare
list of figures, as older renderers send it. `parseBody` reads both; a text
that is neither is a mismatch of protocols that keeps the body.
-/

namespace LiveScene.Scene

/-- What is sent to the renderer. -/
structure RenderRequest where
  source : String
  scene : Json
  deriving Repr, Inhabited

namespace RenderRequest

/-- The JSON form. -/
def toJson (r : RenderRequest) : Json := .obj [("source", .str r.source), ("scene", r.scene)]

/-- Decode a request. -/
def ofJson? (v : Json) : Option RenderRequest := do
  let slot ← v.record? ["source", "scene"] 2
  return ⟨← Json.required Json.str? (slot "source"), (← slot "scene").settled⟩

end RenderRequest

/-- A figure as the renderer drew it. -/
structure RenderedFigure where
  svg : String
  left : Float
  top : Float
  width : Float
  height : Float
  deriving DecidableEq, Repr, Inhabited

namespace RenderedFigure

/-- The JSON form. -/
def toJson (f : RenderedFigure) : Json :=
  .obj [("svg", .str f.svg), ("left", .float f.left), ("top", .float f.top),
    ("width", .float f.width), ("height", .float f.height)]

/-- Decode a figure. -/
def ofJson? (v : Json) : Option RenderedFigure := do
  let slot ← v.record? ["svg", "left", "top", "width", "height"] 5
  let number := Json.required Json.float?
  return ⟨← Json.required Json.str? (slot "svg"), ← number (slot "left"), ← number (slot "top"),
    ← number (slot "width"), ← number (slot "height")⟩

end RenderedFigure

/-- A successful answer. `perf` is the renderer's own profiling data. -/
structure RenderResult where
  figures : List RenderedFigure
  perf : Json
  deriving Repr, Inhabited

namespace RenderResult

/-- The JSON form. -/
def toJson (r : RenderResult) : Json :=
  .obj [("figures", .ofList RenderedFigure.toJson r.figures), ("perf", r.perf)]

/-- Decode a result. -/
def ofJson? (v : Json) : Option RenderResult := do
  let slot ← v.record? ["figures", "perf"] 1
  return ⟨← Json.required (Json.list? RenderedFigure.ofJson?) (slot "figures"),
    ((slot "perf").getD .null).settled⟩

end RenderResult

/-- What a body can hold: a whole result, or figures alone, tried in this order. -/
def bodyResult? (v : Json) : Option RenderResult :=
  (RenderResult.ofJson? v).or ((Json.list? RenderedFigure.ofJson? v).map (⟨·, .null⟩))

/-- Why a body is not a result. -/
inductive BodyFault where
  /-- The text is not JSON. -/
  | notJson
  /-- The text is JSON of another form. -/
  | wrongForm
  deriving DecidableEq, Repr

/-- The wording of the fault. -/
def BodyFault.message : BodyFault → String
  | notJson => "invalid JSON"
  | wrongForm => "data did not match any variant of untagged enum RenderBody"

/-- The result in the body of an answer. -/
def parseBody (body : String) : Except BodyFault RenderResult :=
  match Json.parse? body with
  | none => .error .notJson
  | some v =>
    match bodyResult? v with
    | none => .error .wrongForm
    | some r => .ok r

end LiveScene.Scene
