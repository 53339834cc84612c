import LiveScene.Script.Functions

/-!
# Access to parts

How entries and properties of values are read and written. An index below
zero counts from the end.
-/

namespace LiveScene.Script

/-- The entry of a value at an index. -/
def entry (v idx : Value) : Computed Value :=
  match v, idx with
  | .array items, .int i =>
    match offset? items.length i with
    | some n => .ok (items.getD n .unit)
    | none => .error (.arrayIndex i items.length)
  | .array _, idx => .error (.typeMismatch idx.typeName "i64")
  | .map fields, .str k => .ok ((fields.lookup k).getD .unit)
  | .map _, idx => .error (.typeMismatch idx.typeName "string")
  | .str s, .int i =>
    match offset? s.length i with
    | some n => .ok (.char (s.toList.getD n ' '))
    | none => .error (.stringIndex i s.length)
  | .str _, idx => .error (.typeMismatch idx.typeName "i64")
  | .int n, .int i =>
    match offset? 64 i with
    | some k => .ok (.bool ((BitVec.ofInt 64 n).getLsbD k))
    | none => .error (.bitIndex i)
  | .int _, idx => .error (.typeMismatch idx.typeName "i64")
  | v, idx => .error (.noIndexer v.typeName idx.typeName)

/-- The value with a new entry at an index. -/
def setEntry (v idx new : Value) : Computed Value :=
  match v, idx with
  | .array items, .int i =>
    match offset? items.length i with
    | some n => .ok (.array (items.set n new))
    | none => .error (.arrayIndex i items.length)
  | .map fields, .str k => .ok (.map (insertField k new fields))
  | .str s, .int i =>
    match offset? s.length i, new with
    | some n, .char c => .ok (.str (String.ofList (s.toList.set n c)))
    | some _, new => .error (.typeMismatch new.typeName "char")
    | none, _ => .error (.stringIndex i s.length)
  | .int n, .int i =>
    match offset? 64 i, new with
    | some k, .bool b =>
      let bit := BitVec.shiftLeft (1 : BitVec 64) k
      let bits := BitVec.ofInt 64 n
      .ok (.int (if b then bits ||| bit else bits &&& ~~~bit).toInt)
    | some _, new => .error (.typeMismatch new.typeName "bool")
    | none, _ => .error (.bitIndex i)
  | v, idx =>
    match entry v idx with
    | .ok _ => .error (.noIndexer v.typeName idx.typeName)
    | .error c => .error c

/-- The property of a value. -/
def property (v : Value) (name : String) : Computed Value :=
  match v, name with
  | .map fields, name => .ok ((fields.lookup name).getD .unit)
  | v, name =>
    match (if isGetter v name then builtin name [v] else none) with
    | some result => result.map (·.1)
    | none => .error (.unknownProperty name true v.typeName)

/-- The value with a new value for a property. -/
def setProperty (v : Value) (name : String) (new : Value) : Computed Value :=
  match v with
  | .map fields => .ok (.map (insertField name new fields))
  | v => .error (.unknownProperty name false v.typeName)

end LiveScene.Script
