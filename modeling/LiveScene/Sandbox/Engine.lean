import LiveScene.Sandbox.Config
import LiveScene.Sandbox.Error
import LiveScene.Sandbox.SceneModule
import LiveScene.Script.Parser
import LiveScene.Script.Run

/-!
# Evaluating code

`evaluate` parses and runs a script under the limits of the settings, with
the module of implicit scenes as the only one it can import. The variables
left at the top of the script become exports by their names, and the value
of its last statement becomes the default export.

A failure keeps the place where it happened and the calls that led there,
written as a trace with a frame on each line, outermost first. Scripts count
columns in characters, faults count them in bytes.
-/

namespace LiveScene.Sandbox

open Text Script

/-- The modules that scripts can import. -/
def importable : List (String × ModuleFunctions) :=
  [(Ambient.implicit.moduleName, SceneModule.call)]

/-- The operations after which a script without a limit is taken not to end. -/
def patience : Nat := 10000000

/-- The greatest limit that is still waited for. -/
def longestWait : Nat := 100000000

/-- The operations after which a script under a limit is taken not to end. -/
def patienceFor (maxOperations : Nat) : Nat :=
  if maxOperations = 0 ∨ longestWait < maxOperations then patience else maxOperations + 1

/-- What the parser accepts under the settings. `eval` is refused. -/
def parseLimits (c : Config) : ParseLimits where
  maxString := c.maxStringSize
  maxArray := c.maxArraySize
  maxMap := c.maxMapSize
  maxDepth := c.maxExprDepth
  maxFunctionDepth := c.maxFunctionExprDepth
  refuseEval := true

/-- What a script may do under the settings. -/
def runLimits (c : Config) : RunLimits where
  maxOperations := c.maxOperations
  maxCallLevels := c.maxCallLevels
  maxString := c.maxStringSize
  maxArray := c.maxArraySize
  maxMap := c.maxMapSize
  patience := patienceFor c.maxOperations

/-- The column in bytes of a place whose column counts characters. -/
def byteColumn (index : LineIndex) (p : Place) : Nat :=
  (index.position (index.offsetOf p.line p.col)).2

/-- A frame of a trace: a line and a column in bytes, and the function if there is one. -/
structure TraceFrame where
  function : Option String
  line : Nat
  col : Nat
  deriving DecidableEq, Repr

/-- The line of a frame in a trace. -/
def TraceFrame.text (f : TraceFrame) : String :=
  let place := sourceName ++ ":" ++ toString f.line ++ ":" ++ toString f.col
  match f.function with
  | some name => "\n    at " ++ name ++ " (" ++ place ++ ")"
  | none => "\n    at " ++ place

/-- A fault with the frames that have a place, outermost first. -/
def faultAt (index : LineIndex) (message : String) (frames : List (Option String × Option Place)) :
    Fault :=
  let located := frames.filterMap fun (function, place) =>
    place.map fun p => (⟨function, p.line, byteColumn index p⟩ : TraceFrame)
  { message
    position := located.getLast?.map fun f => (f.line, f.col)
    trace := located.foldl (fun text f => text ++ f.text) message }

/-- The fault of a script that does not parse. -/
def parseFault (index : LineIndex) (e : ParseError) : Fault :=
  faultAt index e.fault.message [(none, some e.place)]

/-- The text in front of the last ` (line ` in it, all of it if there is none. -/
def beforePlace (cs : List Char) : List Char :=
  let mark := " (line ".toList
  match cs with
  | [] => []
  | c :: rest =>
    if mark.isPrefixOf (c :: rest) && !holdsText mark rest then []
    else c :: beforePlace rest

/-- The message of a failure. A text that is cut off where a place would stand
loses what looks like one, if the failure has none. -/
def failureMessage (f : RunFault) : String :=
  match f.cause with
  | .thrown v => v.text
  | .foreign m => m
  | cause =>
    String.ofList (beforePlace (cause.message ++ (f.place.map placeText).getD "").toList)

/-- The fault of a script that failed while it ran. -/
def runFault (index : LineIndex) (f : RunFault) : Fault :=
  faultAt index (failureMessage f)
    (f.calls.map (fun (name, p) => (some name, some p)) ++ [(none, f.place)])

/-- The exports of variables, oldest first, and of the value at the end. A
value without a JSON form is left out. -/
def collectExports (vars : List (String × Value)) (last : Value) : Exports :=
  let put (e : Exports) (name : String) (v : Value) : Exports :=
    match v.toJson? with
    | some j => e.insert name j.settled
    | none => e
  let e := vars.foldl (fun e (name, v) => put e name v) .empty
  match last with
  | .unit => e
  | last => put e Exports.defaultName last

/-- The variables in scope, oldest first. -/
def boundValues (s : Machine) : List (String × Value) :=
  s.scope.reverse.map fun b =>
    (b.name, match b.slot with
      | .own v => v
      | .shared c => (s.cells[c]?).getD .unit)

/-- What evaluating code comes to. -/
structure Evaluation where
  /-- Nothing if the script does not end. -/
  outcome : Option Outcome
  /-- What the script printed, in order. -/
  printed : List String
  deriving Inhabited

/-- Evaluate code under the settings, in a context that may have been cancelled before. -/
def evaluate (c : Config) (cancelled : Bool) (code : String) : Evaluation :=
  let cs := code.toList
  let index := LineIndex.ofChars cs
  match parse (parseLimits c) cs with
  | .error e => ⟨some (.faulted (parseFault index e)), []⟩
  | .ok p =>
    let w : World := ⟨runLimits c, importable, [], cancelled⟩
    let (ending, s) := run w p cs.length
    let outcome := match ending with
      | .value v => some (.completed (collectExports (boundValues s) v))
      | .failed f => some (.faulted (runFault index f))
      | .endless => none
    ⟨outcome, s.printed.reverse⟩

/-- Why a function of the module could not be called by its name. -/
inductive CallError where
  /-- The function failed. -/
  | failed (message : String)
  /-- There is no such function for these arguments. -/
  | notFound (signature : String)
  /-- The name is a word of the language. -/
  | notAName
  deriving DecidableEq, Repr

/-- Call a function of the module by its name, with the alias `i` for the module. -/
def callByName (function : String) (args : List Value) : Except CallError Value :=
  match tokens ⟨0, true⟩ function.toList with
  | (.name _, _) :: (.eof, _) :: _ =>
    match SceneModule.call function args with
    | some (.ok v) => .ok v
    | some (.error m) => .error (.failed m)
    | none => .error (.notFound (Value.signature ("i::" ++ function) args))
  | _ => .error .notAName

end LiveScene.Sandbox
