import LiveScene.Decimal.Layout
import LiveScene.Script.Tree

/-!
# Values of scripts

Maps keep their entries in the order of their keys. A closure keeps the
outer variables it uses by the numbers of their cells, so it and its
surroundings see each other's changes.

`text` is what printing and joining with a string show. Inside of arrays and
maps strings are quoted, while characters stay bare. `toJson?` has no answer
for values that JSON has no form for.
-/

namespace LiveScene.Script

/-- A value. -/
inductive Value where
  | unit
  | bool (b : Bool)
  | int (n : Int)
  | float (x : Float)
  | char (c : Char)
  | str (s : String)
  | array (items : List Value)
  | map (fields : List (String × Value))
  /-- Whole numbers from `lo` up to `hi`, which belongs to them if `closed`. -/
  | range (lo hi : Int) (closed : Bool)
  | closure (name : String) (captured : List (String × Nat)) (params : List String)
      (body : Stmt)
  /-- A value of which no more than the type is known. -/
  | sealed (type : String)
  deriving Inhabited

/-- The entries with one more, or with a new value for its key. -/
def insertField (key : String) (v : Value) : List (String × Value) → List (String × Value)
  | [] => [(key, v)]
  | (k, w) :: rest =>
    if k = key then (key, v) :: rest
    else if key < k then (key, v) :: (k, w) :: rest
    else (k, w) :: insertField key v rest

namespace Value

/-- A literal as a value. -/
def ofLiteral : Literal → Value
  | .unit => unit
  | .bool b => bool b
  | .int n => int n
  | .float x => float x
  | .char c => char c
  | .str s => str s

/-- The name of the value's type. -/
def typeName : Value → String
  | unit => "()"
  | bool _ => "bool"
  | int _ => "i64"
  | float _ => "f64"
  | char _ => "char"
  | str _ => "string"
  | array _ => "array"
  | map _ => "map"
  | range _ _ false => "range"
  | range _ _ true => "range="
  | closure .. => "Fn"
  | sealed type => type

/-- The name of the value's type as the signature of a function shows it. -/
def parameterName : Value → String
  | str _ => "&str | ImmutableString | String"
  | v => v.typeName

/-- A function's name with the types of its arguments. -/
def signature (name : String) (args : List Value) : String :=
  name ++ " (" ++ ", ".intercalate (args.map parameterName) ++ ")"

/-- Floats that stand alone: with an exponent above `1e13` and below `1e-7`. -/
def floatLayout : Decimal.Layout where
  positional x _ := x.abs ≤ 1e13 && 1e-7 ≤ x.abs
  plusSign := false
  exponentWidth := 1
  zero _ := "0.0"
  nan := "NaN"
  infinity negative := if negative then "-inf" else "inf"

/-- Floats inside of arrays and maps: with an exponent from `1e16` on and below
`1e-4`, and with the sign of zero. -/
def innerFloatLayout : Decimal.Layout where
  positional x _ := x.abs < 1e16 && 1e-4 ≤ x.abs
  plusSign := false
  exponentWidth := 1
  zero negative := if negative then "-0.0" else "0.0"
  nan := "NaN"
  infinity negative := if negative then "-inf" else "inf"

/-- A character of a quoted string. -/
def quotedChar (c : Char) : List Char :=
  if c = '"' then ['\\', '"']
  else if c = '\\' then ['\\', '\\']
  else if c = '\n' then ['\\', 'n']
  else if c = '\t' then ['\\', 't']
  else if c = '\r' then ['\\', 'r']
  else if c = '\x00' then ['\\', '0']
  else if c.toNat < 0x20 ∨ c.toNat = 0x7f then
    "\\u\x7b".toList ++ Nat.toDigits 16 c.toNat ++ ['\x7d']
  else [c]

/-- A string in quotes. -/
def quoted (s : String) : String := String.ofList ('"' :: s.toList.flatMap quotedChar ++ ['"'])

mutual

/-- The text of a value inside of another one. -/
def innerText : Value → String
  | unit => "()"
  | bool b => if b then "true" else "false"
  | int n => toString n
  | float x => innerFloatLayout.write x
  | char c => String.singleton c
  | str s => quoted s
  | array items => "[" ++ ", ".intercalate (innerTexts items) ++ "]"
  | map fields => "#\x7b" ++ ", ".intercalate (innerFieldTexts fields) ++ "\x7d"
  | range lo hi closed => toString lo ++ (if closed then "..=" else "..") ++ toString hi
  | closure name .. => "Fn(" ++ name ++ ")"
  | sealed type => type

/-- The texts of items. -/
def innerTexts : List Value → List String
  | [] => []
  | v :: rest => innerText v :: innerTexts rest

/-- The texts of entries. -/
def innerFieldTexts : List (String × Value) → List String
  | [] => []
  | (k, v) :: rest => (quoted k ++ ": " ++ innerText v) :: innerFieldTexts rest

end

/-- Whether a value is the truth value `true`. -/
def holds : Value → Bool
  | bool b => b
  | _ => false

/-- The text of a value. -/
def text : Value → String
  | unit => ""
  | float x => floatLayout.write x
  | str s => s
  | v => v.innerText

mutual

/-- The JSON form of a value. -/
def toJson? : Value → Option Json
  | unit => some .null
  | bool b => some (.bool b)
  | int n => some (.int n)
  | float x => some (.float x)
  | char c => some (.str (String.singleton c))
  | str s => some (.str s)
  | array items => (toJsonItems? items).map .arr
  | map fields => (toJsonFields? fields).map .obj
  | range .. | closure .. | sealed .. => none

/-- The JSON forms of all items or none. -/
def toJsonItems? : List Value → Option (List Json)
  | [] => some []
  | v :: rest => do return (← toJson? v) :: (← toJsonItems? rest)

/-- The JSON forms of all entries or none. -/
def toJsonFields? : List (String × Value) → Option (List (String × Json))
  | [] => some []
  | (k, v) :: rest => do return (k, ← toJson? v) :: (← toJsonFields? rest)

end

mutual

/-- The value of a JSON form. A whole number out of range becomes a float. -/
def ofJson : Json → Value
  | .null => unit
  | .bool b => bool b
  | .int n => if fitsInt n then int n else float (Float.ofInt n)
  | .float x => float x
  | .str s => str s
  | .arr items => array (ofJsonItems items)
  | .obj fields => map (ofJsonFields [] fields)

/-- The values of items. -/
def ofJsonItems : List Json → List Value
  | [] => []
  | v :: rest => ofJson v :: ofJsonItems rest

/-- The values of fields, among the entries in `done`. -/
def ofJsonFields (done : List (String × Value)) : List (String × Json) → List (String × Value)
  | [] => done
  | (k, v) :: rest => ofJsonFields (insertField k (ofJson v) done) rest

end

end Value

/-- How much a value holds: items and entries of all nested arrays and maps,
and the bytes of all strings. -/
structure DataSize where
  items : Nat
  entries : Nat
  bytes : Nat
  deriving DecidableEq, Repr

namespace DataSize

/-- Nothing. -/
def zero : DataSize := ⟨0, 0, 0⟩

/-- Both together. -/
def add (a b : DataSize) : DataSize := ⟨a.items + b.items, a.entries + b.entries, a.bytes + b.bytes⟩

end DataSize

mutual

/-- How much a value holds. -/
def Value.dataSize : Value → DataSize
  | .str s => ⟨0, 0, s.utf8ByteSize⟩
  | .array items => itemsSize items
  | .map fields => fieldsSize fields
  | _ => .zero

/-- How much items hold, themselves included. -/
def itemsSize : List Value → DataSize
  | [] => .zero
  | v :: rest => ((v.dataSize).add ⟨1, 0, 0⟩).add (itemsSize rest)

/-- How much entries hold, themselves included. -/
def fieldsSize : List (String × Value) → DataSize
  | [] => .zero
  | (_, v) :: rest => ((v.dataSize).add ⟨0, 1, 0⟩).add (fieldsSize rest)

end

end LiveScene.Script
