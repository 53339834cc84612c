import LiveScene.Compiler.Compilation
import LiveScene.Sandbox.Config
import LiveScene.Toml.Document

/-!
# Settings

The settings of every part, each with its defaults. They are read from a TOML
document whose sections have the names of the parts; keys that mean nothing
are passed over. `Settings.fault?` finds the first setting that cannot be
worked with. `Settings.load` reads a document, puts an endpoint given
separately in its place, and checks the settings before and after.
-/

namespace LiveScene.Live

open Text

/-- Where and how long to ask the renderer. -/
structure RenderSettings where
  endpoint : String
  timeoutMs : Nat
  deriving DecidableEq, Repr, Inhabited

namespace RenderSettings

/-- What holds where nothing is said. -/
def default : RenderSettings := ⟨"http://localhost:8080", 30000⟩

/-- The JSON form. -/
def toJson (r : RenderSettings) : Json :=
  .obj [("endpoint", .str r.endpoint), ("timeout_ms", .nat r.timeoutMs)]

/-- The names of the fields. -/
def names : List String := ["endpoint", "timeout_ms"]

/-- Decode settings; what is missing keeps its default. -/
def ofJson? (v : Json) : Option RenderSettings := do
  let slot ← v.record? names 0
  return ⟨← Json.defaulted default.endpoint Json.str? (slot "endpoint"),
    ← Json.defaulted default.timeoutMs Json.size? (slot "timeout_ms")⟩

end RenderSettings

/-- How changes are told. -/
structure StoreSettings where
  /-- How long changes are gathered. -/
  tickMs : Nat
  /-- How many notices are kept. -/
  notificationCapacity : Nat
  deriving DecidableEq, Repr, Inhabited

namespace StoreSettings

/-- What holds where nothing is said. -/
def default : StoreSettings := ⟨16, 64⟩

/-- The JSON form. -/
def toJson (s : StoreSettings) : Json :=
  .obj [("tick_ms", .nat s.tickMs), ("notification_capacity", .nat s.notificationCapacity)]

/-- The names of the fields. -/
def names : List String := ["tick_ms", "notification_capacity"]

/-- Decode settings; what is missing keeps its default. -/
def ofJson? (v : Json) : Option StoreSettings := do
  let slot ← v.record? names 0
  return ⟨← Json.defaulted default.tickMs Json.size? (slot "tick_ms"),
    ← Json.defaulted default.notificationCapacity Json.size? (slot "notification_capacity")⟩

end StoreSettings

/-- How submissions treat each other. -/
structure PipelineSettings where
  /-- Whether the results of overtaken submissions are dropped. -/
  fenceStaleResults : Bool
  deriving DecidableEq, Repr, Inhabited

namespace PipelineSettings

/-- What holds where nothing is said. -/
def default : PipelineSettings := ⟨true⟩

/-- The JSON form. -/
def toJson (p : PipelineSettings) : Json :=
  .obj [("fence_stale_results", .bool p.fenceStaleResults)]

/-- The names of the fields. -/
def names : List String := ["fence_stale_results"]

/-- Decode settings; what is missing keeps its default. -/
def ofJson? (v : Json) : Option PipelineSettings := do
  let slot ← v.record? names 0
  return ⟨← Json.defaulted default.fenceStaleResults Json.bool? (slot "fence_stale_results")⟩

end PipelineSettings

/-- All settings. -/
structure Settings where
  compiler : Compiler.Options
  sandbox : Sandbox.Config
  render : RenderSettings
  store : StoreSettings
  pipeline : PipelineSettings
  deriving DecidableEq, Repr, Inhabited

/-- A setting that cannot be worked with. -/
inductive SettingsFault where
  | noContexts
  | noTime
  | noEndpoint
  | noCapacity
  /-- There is no compiler for the target. -/
  | target (error : Compiler.CompileError)
  deriving DecidableEq, Repr

/-- The wording of the fault. -/
def SettingsFault.message (f : SettingsFault) : String :=
  "invalid config: " ++ match f with
    | noContexts => "sandbox.max_contexts must be at least 1"
    | noTime => "sandbox.timeout_ms must be at least 1"
    | noEndpoint => "render.endpoint must not be empty"
    | noCapacity => "store.notification_capacity must be at least 1"
    | target e => e.message

/-- Why settings could not be loaded. -/
inductive LoadError where
  /-- There is no such file. -/
  | unreadable
  /-- The text is not TOML, or a value has the wrong type. -/
  | malformed
  | invalid (fault : SettingsFault)
  deriving DecidableEq, Repr

/-- The wording of the error. -/
def LoadError.message : LoadError → String
  | unreadable => "failed to read config"
  | malformed => "failed to parse config"
  | invalid f => f.message

/-- A file of settings, if one was named. -/
inductive SettingsFile where
  | unnamed
  | missing
  | holding (text : String)
  deriving DecidableEq, Repr

namespace Settings

/-- What holds where nothing is said. -/
def default : Settings := ⟨.default, .default, .default, .default, .default⟩

/-- The JSON form. -/
def toJson (s : Settings) : Json :=
  .obj [("compiler", s.compiler.toJson), ("sandbox", s.sandbox.toJson),
    ("render", s.render.toJson), ("store", s.store.toJson), ("pipeline", s.pipeline.toJson)]

/-- Decode settings; what is missing keeps its default. -/
def ofJson? (v : Json) : Option Settings := do
  let slot ← v.record? ["compiler", "sandbox", "render", "store", "pipeline"] 0
  return ⟨← Json.defaulted .default Compiler.Options.ofJson? (slot "compiler"),
    ← Json.defaulted .default Sandbox.Config.ofJson? (slot "sandbox"),
    ← Json.defaulted .default RenderSettings.ofJson? (slot "render"),
    ← Json.defaulted .default StoreSettings.ofJson? (slot "store"),
    ← Json.defaulted .default PipelineSettings.ofJson? (slot "pipeline")⟩

/-- How many fields a section has. -/
def sectionSize : String → Nat
  | "compiler" => 2
  | "sandbox" => 10
  | "render" => 2
  | "store" => 2
  | "pipeline" => 1
  | _ => 0

/-- A section without the items that an array has too many. -/
def fitSection : String × Json → String × Json
  | (name, .arr items) => (name, .arr (items.take (sectionSize name)))
  | other => other

/-- Decode the value of a document. -/
def ofToml? (v : Toml.Value) : Option Settings :=
  match v.toJson with
  | .obj sections => ofJson? (.obj (sections.map fitSection))
  | _ => none

/-- The first setting that cannot be worked with. -/
def fault? (s : Settings) : Option SettingsFault :=
  if s.sandbox.maxContexts = 0 then some .noContexts
  else if s.sandbox.timeoutMs = 0 then some .noTime
  else if (trim s.render.endpoint.toList).isEmpty then some .noEndpoint
  else if s.store.notificationCapacity = 0 then some .noCapacity
  else none

/-- The settings, if they can be worked with. -/
def checked (s : Settings) : Except LoadError Settings :=
  match s.fault? with
  | none => .ok s
  | some f => .error (.invalid f)

/-- The settings of a document. -/
def parse (text : String) : Except LoadError Settings :=
  match (Toml.parse? text).bind ofToml? with
  | none => .error .malformed
  | some s => s.checked

/-- The settings with another endpoint, if one is given. -/
def withEndpoint (s : Settings) : Option String → Settings
  | none => s
  | some e => { s with render := { s.render with endpoint := e } }

/-- The settings of a file. -/
def ofFile : SettingsFile → Except LoadError Settings
  | .unnamed => .ok default
  | .missing => .error .unreadable
  | .holding text => parse text

/-- The settings of a file, with the endpoint that is given separately. -/
def load (file : SettingsFile) (endpoint : Option String) : Except LoadError Settings := do
  let s ← ofFile file
  (s.withEndpoint endpoint).checked

end Settings

/-- A span of time, as whole seconds and a part of one. -/
structure Span where
  secs : Nat
  nanos : Nat
  deriving DecidableEq, Repr, Inhabited

/-- The whole milliseconds of a span, no more than 64 bits hold. -/
def Span.millis (d : Span) : Nat := min (d.secs * 1000 + d.nanos / 1000000) Json.maxSize

/-- A change of settings. -/
inductive SettingsChange where
  | maxContexts (n : Nat)
  | maxIdle (n : Nat)
  | maxOperations (n : Nat)
  | timeout (d : Span)
  | tick (d : Span)
  | endpoint (e : String)
  | target (t : String)
  | fencing (b : Bool)
  | strict (b : Bool)
  | resetSandbox
  | resetRender
  | resetStore
  | resetCompiler
  deriving DecidableEq, Repr

/-- The settings after a change. -/
def Settings.change (s : Settings) : SettingsChange → Settings
  | .maxContexts n => { s with sandbox.maxContexts := n }
  | .maxIdle n => { s with sandbox.maxIdle := n }
  | .maxOperations n => { s with sandbox.maxOperations := n }
  | .timeout d => { s with sandbox.timeoutMs := d.millis }
  | .tick d => { s with store.tickMs := d.millis }
  | .endpoint e => { s with render.endpoint := e }
  | .target t => { s with compiler.target := t }
  | .fencing b => { s with pipeline.fenceStaleResults := b }
  | .strict b => { s with compiler.strictNullChecks := b }
  | .resetSandbox => { s with sandbox := .default }
  | .resetRender => { s with render := .default }
  | .resetStore => { s with store := .default }
  | .resetCompiler => { s with compiler := .default }

end LiveScene.Live
