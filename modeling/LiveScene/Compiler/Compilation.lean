import LiveScene.Compiler.ModuleCheck
import LiveScene.Script.Names
import LiveScene.Script.Parser

/-!
# Compiling a script

A compilation hands the source on as it is and reports what is wrong with
it. A script that does not parse has one finding and no others. One that
does is checked for names without a definition, if the options ask for it,
and for what it takes from modules.
-/

namespace LiveScene.Compiler

open Text Diagnostics Sandbox Script

/-- The only language scripts are compiled to. -/
def scriptTarget : String := "rhai"

/-- Options of the compiler. -/
structure Options where
  target : String
  /-- Whether names without a definition are reported. -/
  strictNullChecks : Bool
  deriving DecidableEq, Repr, Inhabited

namespace Options

/-- What holds where nothing is said. -/
def default : Options := ⟨scriptTarget, true⟩

/-- The JSON form. -/
def toJson (o : Options) : Json :=
  .obj [("target", .str o.target), ("strict_null_checks", .bool o.strictNullChecks)]

/-- Decode options; what is missing keeps its default. -/
def ofJson? (v : Json) : Option Options := do
  let slot ← v.record? ["target", "strict_null_checks"] 0
  return ⟨← Json.defaulted default.target Json.str? (slot "target"),
    ← Json.defaulted default.strictNullChecks Json.bool? (slot "strict_null_checks")⟩

end Options

/-- Why a compilation gives no result at all. -/
inductive CompileError where
  | unsupportedTarget (target : String)
  /-- The compiler broke down. -/
  | worker (message : String)
  deriving DecidableEq, Repr

/-- The wording of the error. -/
def CompileError.message : CompileError → String
  | unsupportedTarget t =>
    "unsupported compile target '" ++ t ++ "', only '" ++ scriptTarget ++ "' is available"
  | worker m => "compiler worker failed: " ++ m

/-- The result of a compilation. -/
structure Compilation where
  /-- The code to run. -/
  emitted : String
  grammar : List Diagnostic
  semantic : List Diagnostic
  deriving Repr, Inhabited

namespace Compilation

/-- A compilation without findings. -/
def clean (emitted : String) : Compilation := ⟨emitted, [], []⟩

/-- Whether anything was found. -/
def hasDiagnostics (c : Compilation) : Bool := !c.grammar.isEmpty || !c.semantic.isEmpty

end Compilation

/-- The bounds of the compiler's parser: only the depth of expressions is limited. -/
def parseLimits : ParseLimits where
  maxString := 0
  maxArray := 0
  maxMap := 0
  maxDepth := 64
  maxFunctionDepth := 32
  refuseEval := false

/-- The finding about a parse error. It is one byte long, none at the end of the source. -/
def parseFinding (source : List Char) (e : ParseError) : Diagnostic :=
  let index := LineIndex.ofChars source
  let offset := index.offsetOf e.place.line e.place.col
  .text offset (if offset < byteLength source then 1 else 0) e.fault.message

/-- Findings in the order of their offsets; of one offset the earlier stays first. -/
def sortFindings (ds : List Diagnostic) : List Diagnostic :=
  ds.mergeSort fun a b => a.offset ≤ b.offset

/-- The finding about the first name without a definition, if it is asked for. -/
def nameFindings (o : Options) (source : List Char) (p : Program) : List Diagnostic :=
  if o.strictNullChecks then
    match checkNames p with
    | .ok () => []
    | .error e => [parseFinding source e]
  else []

/-- Compile a source against ambient declarations. -/
def compile (o : Options) (ambient : Ambient) (source : String) : Compilation :=
  let cs := source.toList
  match parse parseLimits cs with
  | .error e => ⟨source, [parseFinding cs e], []⟩
  | .ok p => ⟨source, [], sortFindings (nameFindings o cs p ++ moduleFindings ambient cs)⟩

/-- Compile a source if the options name a target there is a compiler for. -/
def compile? (o : Options) (ambient : Ambient) (source : String) :
    Except CompileError Compilation :=
  if o.target = scriptTarget then .ok (compile o ambient source)
  else .error (.unsupportedTarget o.target)

end LiveScene.Compiler
