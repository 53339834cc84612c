import LiveScene.Diagnostics.Trace

/-!
# What comes out of the sandbox

A script leaves exports or a fault. A fault says where it happened by its
position or, failing that, by its trace; a fault that says neither cannot be
shown in the source and counts as unclassified.

`Response` is the form of a result on the wire, where the numbers of an
error have names of their own.
-/

namespace LiveScene.Sandbox

open Diagnostics

/-- The values a script leaves behind, in the order of their names, each name once. -/
structure Exports where
  entries : List (String × Json)
  deriving Repr, Inhabited

namespace Exports

/-- The name of the value a script ends with. -/
def defaultName : String := "default"

/-- Nothing. -/
def empty : Exports := ⟨[]⟩

/-- Entries in the order of their names with one more, or with a new value for its name. -/
def insertEntry (name : String) (v : Json) : List (String × Json) → List (String × Json)
  | [] => [(name, v)]
  | (k, w) :: rest =>
    if k = name then (name, v) :: rest
    else if name < k then (name, v) :: (k, w) :: rest
    else (k, w) :: insertEntry name v rest

/-- With a value more, or a new one for its name. -/
def insert (e : Exports) (name : String) (v : Json) : Exports := ⟨insertEntry name v e.entries⟩

/-- The exports of a list of pairs; of one name the last pair counts. -/
def ofList (pairs : List (String × Json)) : Exports :=
  pairs.foldl (fun e (name, v) => e.insert name v) .empty

/-- The value of a name. -/
def get? (e : Exports) (name : String) : Option Json := e.entries.lookup name

/-- The value a script ended with. -/
def default? (e : Exports) : Option Json := e.get? defaultName

/-- The names. -/
def names (e : Exports) : List String := e.entries.map (·.1)

/-- How many there are. -/
def size (e : Exports) : Nat := e.entries.length

/-- Whether there are none. -/
def isEmpty (e : Exports) : Bool := e.entries.isEmpty

/-- The JSON form. -/
def toJson (e : Exports) : Json := .obj e.entries

/-- Decode exports. -/
def ofJson? : Json → Option Exports
  | .obj fields => some (ofList (fields.map fun (k, v) => (k, v.settled)))
  | _ => none

end Exports

/-- A result as callers see it. -/
inductive Result where
  | ok (exports : Exports)
  | error (record : ErrorRecord)
  deriving Repr, Inhabited

namespace Result

/-- Whether the script left exports. -/
def isOk : Result → Bool
  | ok _ => true
  | error _ => false

/-- The form on the wire. -/
def toJson : Result → Json
  | ok e => .obj [("status", .str "ok"), ("exports", e.toJson)]
  | error r =>
    .obj [("status", .str "err"),
      ("error", .obj [("line_num", .nat r.line), ("col_num", .nat r.col),
        ("message", .str r.message)])]

/-- Decode the error of a response. -/
def wireError? (v : Json) : Option ErrorRecord := do
  let slot ← v.record? ["line_num", "col_num", "message"] 3
  let line ← Json.required Json.size? (slot "line_num")
  let col ← Json.required Json.size? (slot "col_num")
  return ⟨← Json.required Json.str? (slot "message"), line, col⟩

/-- Decode a response. -/
def ofJson? (v : Json) : Option Result := do
  let fields : String → List String
    | "ok" => ["exports"]
    | "err" => ["error"]
    | _ => []
  match ← v.variant? "status" fields with
  | ("ok", slot) => return ok (← Json.required Exports.ofJson? (slot "exports"))
  | ("err", slot) => return error (← Json.required wireError? (slot "error"))
  | _ => none

end Result

/-- A failure of a script. -/
structure Fault where
  message : String
  /-- Line and column in bytes. -/
  position : Option (Nat × Nat)
  /-- The message and the frames of the calls, one to a line. -/
  trace : String
  deriving DecidableEq, Repr, Inhabited

namespace Fault

/-- A failure without a place. -/
def unpositioned (message : String) : Fault := ⟨message, none, message⟩

/-- The record of the failure: by its position, else by its trace. -/
def classify (f : Fault) : TraceClass :=
  match f.position with
  | some (line, col) => .classified ⟨f.message, line, col⟩
  | none => classifyTrace f.trace

end Fault

/-- What a context reports. -/
inductive Outcome where
  | completed (exports : Exports)
  | faulted (fault : Fault)
  deriving Repr, Inhabited

end LiveScene.Sandbox
