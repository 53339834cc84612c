import LiveScene.Json

/-!
# Error records and bundles

An `ErrorRecord` is an error ready to be shown, with a line and a column
counted from 1, or 0 for both where the place is unknown. An `ErrorBundle`
groups records by category. Failures of the network are filed with those of
running code, so the bundle has one category less than there are kinds.
-/

namespace LiveScene.Diagnostics

/-- What went wrong. -/
inductive ErrorKind where
  /-- The source does not parse. -/
  | grammar
  /-- The source parses but names something that is not there. -/
  | semantic
  /-- Running the code failed. -/
  | runtime
  /-- The renderer refused or was out of reach. -/
  | network
  deriving DecidableEq, Repr, Inhabited

namespace ErrorKind

/-- Whether errors of this kind are known before any code runs. -/
def isCompileTime : ErrorKind → Bool
  | grammar | semantic => true
  | runtime | network => false

/-- The name of the kind. -/
def name : ErrorKind → String
  | grammar => "syntax"
  | semantic => "semantic"
  | runtime => "runtime"
  | network => "network"

/-- The JSON form: the name. -/
def toJson (k : ErrorKind) : Json := .str k.name

/-- Decode a kind. -/
def ofJson? (v : Json) : Option ErrorKind := do
  match ← v.unitCase? with
  | "syntax" => some grammar
  | "semantic" => some semantic
  | "runtime" => some runtime
  | "network" => some network
  | _ => none

end ErrorKind

/-- An error ready to be shown. -/
structure ErrorRecord where
  message : String
  /-- From 1 on, 0 when unknown. -/
  line : Nat
  /-- From 1 on, 0 when unknown. -/
  col : Nat
  deriving DecidableEq, Repr, Inhabited

namespace ErrorRecord

/-- A record without a place in the source. -/
def unpositioned (message : String) : ErrorRecord := ⟨message, 0, 0⟩

/-- Whether the record points into the source. -/
def hasPosition (r : ErrorRecord) : Bool := 0 < r.line

/-- The record on one line, led by its place if it has one. -/
def display (r : ErrorRecord) : String :=
  if r.hasPosition then
    toString r.line ++ ":" ++ toString r.col ++ ": " ++ r.message
  else r.message

/-- The JSON form. -/
def toJson (r : ErrorRecord) : Json :=
  .obj [("message", .str r.message), ("line", .nat r.line), ("col", .nat r.col)]

/-- Decode a record. -/
def ofJson? (v : Json) : Option ErrorRecord := do
  let slot ← v.record? ["message", "line", "col"] 3
  return ⟨← Json.required Json.str? (slot "message"), ← Json.required Json.size? (slot "line"),
    ← Json.required Json.size? (slot "col")⟩

end ErrorRecord

/-- Errors grouped by category. -/
structure ErrorBundle where
  grammar : List ErrorRecord
  semantic : List ErrorRecord
  runtime : List ErrorRecord
  deriving DecidableEq, Repr, Inhabited

namespace ErrorBundle

/-- No errors. -/
def empty : ErrorBundle := ⟨[], [], []⟩

/-- The findings of a compilation. -/
def ofCompilation (grammar semantic : List ErrorRecord) : ErrorBundle := ⟨grammar, semantic, []⟩

/-- One record of a failed run or a refused render. -/
def ofRuntime (record : ErrorRecord) : ErrorBundle := ⟨[], [], [record]⟩

/-- Add a record at the end of its kind's category. -/
def push (b : ErrorBundle) (kind : ErrorKind) (record : ErrorRecord) : ErrorBundle :=
  match kind with
  | .grammar => { b with grammar := b.grammar ++ [record] }
  | .semantic => { b with semantic := b.semantic ++ [record] }
  | .runtime | .network => { b with runtime := b.runtime ++ [record] }

/-- The number of records. -/
def total (b : ErrorBundle) : Nat := b.grammar.length + b.semantic.length + b.runtime.length

/-- Whether there is no record. -/
def isEmpty (b : ErrorBundle) : Bool := b.total = 0

/-- All records with the category they were filed under. -/
def toList (b : ErrorBundle) : List (ErrorKind × ErrorRecord) :=
  b.grammar.map (.grammar, ·) ++ b.semantic.map (.semantic, ·) ++ b.runtime.map (.runtime, ·)

/-- The JSON form. -/
def toJson (b : ErrorBundle) : Json :=
  .obj [("syntax", .ofList ErrorRecord.toJson b.grammar),
    ("semantic", .ofList ErrorRecord.toJson b.semantic),
    ("runtime", .ofList ErrorRecord.toJson b.runtime)]

/-- Decode a bundle. -/
def ofJson? (v : Json) : Option ErrorBundle := do
  let slot ← v.record? ["syntax", "semantic", "runtime"] 3
  let records := Json.required (Json.list? ErrorRecord.ofJson?)
  return ⟨← records (slot "syntax"), ← records (slot "semantic"), ← records (slot "runtime")⟩

end ErrorBundle

end LiveScene.Diagnostics
