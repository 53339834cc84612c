/-!
# JSON values

`Json` keeps whole numbers apart from floats, so a value says which of the
two it was written as. An object keeps its fields in the order they came in,
repeated names included. `lookup` refuses a repeated name, `settled` keeps
the last field of each name and turns a float without a JSON form into `null`.

Records are decoded through `record?`, which reads an object or an array in
declaration order and answers with a slot for every field. `required`,
`optional` and `defaulted` say what a missing field means.
-/

namespace LiveScene

/-- A JSON value. -/
inductive Json where
  | null
  | bool (b : Bool)
  | int (n : Int)
  | float (x : Float)
  | str (s : String)
  | arr (items : List Json)
  | obj (fields : List (String × Json))
  deriving Repr, Inhabited

namespace Json

/-- Insert a field, replacing an earlier one of the same name in place. -/
def putField (name : String) (v : Json) : List (String × Json) → List (String × Json)
  | [] => [(name, v)]
  | (k, w) :: rest => if k = name then (k, v) :: rest else (k, w) :: putField name v rest

mutual

/-- The value with the last field of each name kept, and floats outside of
JSON's numbers turned into `null`. -/
def settled : Json → Json
  | .null => .null
  | .bool b => .bool b
  | .int n => .int n
  | .float x => if x.isFinite then .float x else .null
  | .str s => .str s
  | .arr items => .arr (settledItems items)
  | .obj fields => .obj (settledFields [] fields)

/-- `settled` on every item. -/
def settledItems : List Json → List Json
  | [] => []
  | v :: rest => settled v :: settledItems rest

/-- `settled` on every field, collected after the fields in `done`. -/
def settledFields (done : List (String × Json)) : List (String × Json) → List (String × Json)
  | [] => done
  | (k, v) :: rest => settledFields (putField k (settled v) done) rest

end

/-- `null` is told apart from every other value. -/
def isNull : Json → Bool
  | .null => true
  | _ => false

/-- A string, not converted from anything else. -/
def str? : Json → Option String
  | .str s => some s
  | _ => none

/-- A boolean, not converted from anything else. -/
def bool? : Json → Option Bool
  | .bool b => some b
  | _ => none

/-- A float; whole numbers count as floats. -/
def float? : Json → Option Float
  | .float x => some x
  | .int n => some (Float.ofInt n)
  | _ => none

/-- A whole number from 0 up to and including `top`. -/
def natUpTo? (top : Nat) : Json → Option Nat
  | .int (.ofNat n) => if n ≤ top then some n else none
  | _ => none

/-- The largest size or count: 64 bits without a sign. -/
def maxSize : Nat := 18446744073709551615

/-- A size or count. -/
def size? (v : Json) : Option Nat := v.natUpTo? maxSize

/-- The items of an array. -/
def arr? : Json → Option (List Json)
  | .arr items => some items
  | _ => none

/-- Decode every item of an array, all or nothing. -/
def list? {α : Type} (decode : Json → Option α) : Json → Option (List α)
  | .arr items => items.mapM decode
  | _ => none

/-- The slots of a record's fields: `none` for a field that is missing. -/
abbrev Slots := String → Option Json

/-- Whether a name stands in front of more than one field. -/
def repeats (name : String) (fields : List (String × Json)) : Bool :=
  1 < fields.countP (fun f => f.1 = name)

/-- The slots of a record with the given field names.

An object gives a slot to each field by name and may hold other fields; a
name of the record must not be repeated. An array gives the slots in
declaration order, at least `least` of them and no more than there are names. -/
def record? (names : List String) (least : Nat) : Json → Option Slots
  | .obj fields =>
    if names.any (repeats · fields) then none else some (fun n => fields.lookup n)
  | .arr items =>
    if least ≤ items.length ∧ items.length ≤ names.length then
      some (fun n => (names.zip items).lookup n)
    else none
  | _ => none

/-- The slots of a record that is an object; arrays are refused. -/
def object? (names : List String) : Json → Option Slots
  | .obj fields =>
    if names.any (repeats · fields) then none else some (fun n => fields.lookup n)
  | _ => none

/-- A value with several cases, told apart by the field `tag`: the name of the
case and the slots of its fields. As an array it starts with the name, and
the fields of the case follow in declaration order, all of them. -/
def variant? (tag : String) (names : String → List String) : Json → Option (String × Slots)
  | .obj fields => do
    let kind ← (← fields.lookup tag).str?
    if (tag :: names kind).any (repeats · fields) then none
    else return (kind, fun n => fields.lookup n)
  | .arr (.str kind :: items) =>
    if items.length = (names kind).length then
      some (kind, fun n => ((names kind).zip items).lookup n)
    else none
  | _ => none

/-- A field that must be there. -/
def required {α : Type} (decode : Json → Option α) : Option Json → Option α
  | none => none
  | some v => decode v

/-- A field that may be missing or `null`. -/
def optional {α : Type} (decode : Json → Option α) : Option Json → Option (Option α)
  | none => some none
  | some .null => some none
  | some v => (decode v).map some

/-- A field with a default for when it is missing; `null` is no default. -/
def defaulted {α : Type} (default : α) (decode : Json → Option α) : Option Json → Option α
  | none => some default
  | some v => decode v

/-- The JSON form of an optional value. -/
def ofOption {α : Type} (encode : α → Json) : Option α → Json
  | none => .null
  | some a => encode a

/-- The JSON form of a natural number. -/
def nat (n : Nat) : Json := .int n

/-- The JSON form of a list. -/
def ofList {α : Type} (encode : α → Json) (items : List α) : Json := .arr (items.map encode)

/-- The case of an enumeration and its value: a bare name, or an object whose
only field is the name. -/
def case? : Json → Option (String × Option Json)
  | .str name => some (name, none)
  | .obj [(name, v)] => some (name, some v)
  | _ => none

/-- The case of an enumeration without values; as an object it holds `null`. -/
def unitCase? (v : Json) : Option String :=
  match v.case? with
  | some (name, none) => some name
  | some (name, some .null) => some name
  | _ => none

end Json

end LiveScene
