import LiveScene.Diagnostics.Record
import LiveScene.Text.Lines

/-!
# Diagnostics of the compiler

A diagnostic points at a byte range of the source. Its message is a text or
another diagnostic that carries the message; only the innermost text is
shown, at the place of the outermost diagnostic.
-/

namespace LiveScene.Diagnostics

open Text

/-- A finding about a byte range of the source. -/
inductive Diagnostic where
  /-- A finding with its text. -/
  | text (offset length : Nat) (message : String)
  /-- A finding whose message is another diagnostic. -/
  | nested (offset length : Nat) (inner : Diagnostic)
  deriving DecidableEq, Repr, Inhabited

namespace Diagnostic

/-- The first byte of the range. -/
def offset : Diagnostic → Nat
  | text o _ _ => o
  | nested o _ _ => o

/-- The number of bytes of the range. -/
def length : Diagnostic → Nat
  | text _ n _ => n
  | nested _ n _ => n

/-- The text at the end of the chain. -/
def innermostMessage : Diagnostic → String
  | text _ _ m => m
  | nested _ _ d => d.innermostMessage

/-- How many diagnostics stand between this one and the text. -/
def nestingDepth : Diagnostic → Nat
  | text .. => 0
  | nested _ _ d => d.nestingDepth + 1

/-- The diagnostic wrapped a number of times, always over the same range. -/
def wrap (d : Diagnostic) : Nat → Diagnostic
  | 0 => d
  | n + 1 => nested d.offset d.length (d.wrap n)

/-- The JSON form. -/
def toJson : Diagnostic → Json
  | text o n m => .obj [("offset", .nat o), ("length", .nat n), ("message", .str m)]
  | nested o n d => .obj [("offset", .nat o), ("length", .nat n), ("message", d.toJson)]

mutual

/-- Decode a diagnostic, as an object or as an array of its three fields. -/
def ofJson? : Json → Option Diagnostic
  | .obj fields =>
    if ["offset", "length", "message"].any (Json.repeats · fields) then none
    else do
      let o ← Json.required Json.size? (fields.lookup "offset")
      let n ← Json.required Json.size? (fields.lookup "length")
      message? o n fields
  | .arr [o, n, .str m] => do return text (← o.size?) (← n.size?) m
  | .arr [o, n, inner] => do return nested (← o.size?) (← n.size?) (← ofJson? inner)
  | _ => none

/-- The diagnostic over a range whose message is among the fields. -/
def message? (o n : Nat) : List (String × Json) → Option Diagnostic
  | [] => none
  | (name, v) :: rest =>
    if name = "message" then
      match v with
      | .str m => some (text o n m)
      | v => (ofJson? v).map (nested o n)
    else message? o n rest

end

/-- The record of a diagnostic, placed by the index of its source. -/
def record (index : LineIndex) (d : Diagnostic) : ErrorRecord :=
  let (line, col) := index.position d.offset
  ⟨d.innermostMessage, line, col⟩

end Diagnostic

/-- The record of one diagnostic about a source. -/
def classify (source : String) (d : Diagnostic) : ErrorRecord := d.record (.ofString source)

/-- The records of diagnostics about one source, which share one index. -/
def classifyAll (source : String) (ds : List Diagnostic) : List ErrorRecord :=
  ds.map (Diagnostic.record (.ofString source))

end LiveScene.Diagnostics
