import LiveScene.Script.Arithmetic
import LiveScene.Script.Lexer
import LiveScene.Text.CharClass

/-!
# Built-in functions

What scripts can call without a definition, by the kind of the first
argument. A function that changes its first argument answers with it as it
is afterwards, too. A position below zero counts from the end; what lies
outside is moved to the nearer end, or gives `()`.

A call that fits none of the functions gets no answer, so that the caller
can name the types it was made with.
-/

namespace LiveScene.Script

/-- The result of a function and, where it changes its first argument, that
argument afterwards. -/
abbrev Native := Computed (Value × Option Value)

namespace Native

/-- A function that only has a result. -/
def result (v : Value) : Option Native := some (.ok (v, none))

/-- A function that only changes its first argument. -/
def change (v : Value) : Option Native := some (.ok (.unit, some v))

/-- A function that takes something out of its first argument. -/
def take (v rest : Value) : Option Native := some (.ok (v, some rest))

/-- A function that fails. -/
def fault (message : String) : Option Native := some (.error (.arithmetic message))

end Native

/-- The offset that an index stands for in a row of `size` items. -/
def offset? (size : Nat) (i : Int) : Option Nat :=
  let n := if i < 0 then (size : Int) + i else i
  if 0 ≤ n ∧ n < size then some n.toNat else none

/-- The offset nearest to what a position stands for in a row of `size` items. -/
def clampedOffset (size : Nat) (i : Int) : Nat :=
  min size (if i < 0 then ((size : Int) + i).toNat else i.toNat)

/-- The part of a row from a position on with so many items. -/
def slice {α : Type} (items : List α) (start count : Int) : List α :=
  (items.drop (clampedOffset items.length start)).take count.toNat

/-- The part of a row that a range stands for. -/
def sliceRange {α : Type} (items : List α) (lo hi : Int) (closed : Bool) : List α :=
  let hi := if closed then hi + 1 else hi
  slice items (max lo 0) (max hi 0 - max lo 0)

/-! ## Numbers -/

/-- The digits of a number's 64 bits in a base. -/
def bitsText (base : Nat) (n : Int) : String :=
  String.ofList (Nat.toDigits base (BitVec.ofInt 64 n).toNat)

/-- The whole part of a float. -/
def wholePart (x : Float) : Float := if x < 0.0 then x.ceil else x.floor

/-- The whole number of a text in a base, after a sign. -/
def parseInt (text : String) (base : Nat) : Except String Int :=
  let cs := Text.trim text.toList
  let (negative, digits) := match cs with
    | '-' :: rest => (true, rest)
    | '+' :: rest => (false, rest)
    | cs => (false, cs)
  let digit? (c : Char) : Option Nat :=
    let n := if c.isDigit then c.toNat - 48
      else if c.isAlpha then c.toLower.toNat - 87 else base
    if n < base then some n else none
  if cs = [] then .error "cannot parse integer from empty string"
  else if digits = [] then .error "invalid digit found in string"
  else
    match digits.mapM digit? with
    | none => .error "invalid digit found in string"
    | some ds =>
      let n : Int := Int.ofNat (ds.foldl (fun n d => n * base + d) 0)
      let n := if negative then -n else n
      if fitsInt n then .ok n
      else if negative then .error "number too small to fit in target type"
      else .error "number too large to fit in target type"

/-- The answer of reading a whole number. -/
def parsedInt (text : String) (base : Nat) : Option Native :=
  match parseInt text base with
  | .ok n => Native.result (.int n)
  | .error e => Native.fault ("Error parsing integer number '" ++ text ++ "': " ++ e)

/-- The answer of reading a float. -/
def parsedFloat (text : String) : Option Native :=
  let cs := Text.trim text.toList
  let (negative, body) := match cs with
    | '-' :: rest => (true, rest)
    | '+' :: rest => (false, rest)
    | cs => (false, cs)
  let fail (e : String) : Option Native :=
    Native.fault ("Error parsing floating-point number '" ++ text ++ "': " ++ e)
  if cs = [] then fail "cannot parse float from empty string"
  else
    let lower := body.map Char.toLower
    let written := if body.any Char.isDigit then floatOfText? negative lower else none
    match written with
    | some x => Native.result (.float x)
    | none => fail "invalid float literal"

/-- Functions of one float that give a float. -/
def floatFunction? : String → Option (Float → Float)
  | "floor" => some Float.floor
  | "ceiling" => some Float.ceil
  | "round" => some Float.round
  | "int" => some wholePart
  | "fraction" => some fun x => x - wholePart x
  | "abs" => some Float.abs
  | "sqrt" => some Float.sqrt
  | "exp" => some Float.exp
  | "ln" => some Float.log
  | "log" => some Float.log10
  | "sin" => some Float.sin
  | "cos" => some Float.cos
  | "tan" => some Float.tan
  | "asin" => some Float.asin
  | "acos" => some Float.acos
  | "atan" => some Float.atan
  | "sinh" => some Float.sinh
  | "cosh" => some Float.cosh
  | "tanh" => some Float.tanh
  | "asinh" => some Float.asinh
  | "acosh" => some Float.acosh
  | "atanh" => some Float.atanh
  | "to_degrees" => some fun x => x * (180.0 / 3.141592653589793)
  | "to_radians" => some fun x => x * (3.141592653589793 / 180.0)
  | _ => none

/-- Questions about one float. -/
def floatQuestion? : String → Option (Float → Bool)
  | "is_nan" => some Float.isNaN
  | "is_infinite" => some Float.isInf
  | "is_finite" => some Float.isFinite
  | "is_zero" => some (· == 0.0)
  | _ => none

/-- Questions about one whole number. -/
def intQuestion? : String → Option (Int → Bool)
  | "is_zero" => some (· = 0)
  | "is_odd" => some (· % 2 ≠ 0)
  | "is_even" => some (· % 2 = 0)
  | _ => none

/-- Functions of numbers. -/
def numberFunction (name : String) (args : List Value) : Option Native :=
  match name, args with
  | "PI", [] => Native.result (.float 3.141592653589793)
  | "E", [] => Native.result (.float 2.718281828459045)
  | "abs", [.int n] =>
    if n = minInt then Native.fault ("Negation overflow: -" ++ toString n)
    else Native.result (.int n.natAbs)
  | "sign", [.int n] => Native.result (.int n.sign)
  | "sign", [.float x] =>
    if x.isNaN then Native.fault "Sign of NaN is undefined"
    else Native.result (.int (if x < 0.0 then -1 else if 0.0 < x then 1 else 0))
  | "to_int", [.int n] => Native.result (.int n)
  | "to_int", [.char c] => Native.result (.int c.toNat)
  | "to_int", [.float x] =>
    if Float.ofInt (-minInt) < x || x < Float.ofInt minInt then
      Native.fault ("Integer overflow: to_int(" ++ Value.floatLayout.write x ++ ")")
    else Native.result (.int x.toInt64.toInt)
  | "to_float", [.int n] => Native.result (.float (Float.ofInt n))
  | "to_hex", [.int n] => Native.result (.str (bitsText 16 n))
  | "to_octal", [.int n] => Native.result (.str (bitsText 8 n))
  | "to_binary", [.int n] => Native.result (.str (bitsText 2 n))
  | "parse_int", [.str s] => parsedInt s 10
  | "parse_int", [.str s, .int base] =>
    if 2 ≤ base ∧ base ≤ 36 then parsedInt s base.toNat
    else Native.fault ("Invalid radix: '" ++ toString base ++ "'")
  | "parse_float", [.str s] => parsedFloat s
  | "atan", [.float x, .float y] => Native.result (.float (Float.atan2 x y))
  | "hypot", [.float x, .float y] => Native.result (.float (Float.sqrt (x * x + y * y)))
  | "log", [.float x, .float base] => Native.result (.float (x.log / base.log))
  | "range", [.int lo, .int hi] => Native.result (.range lo hi false)
  | "min", [.int a, .int b] => Native.result (.int (min a b))
  | "max", [.int a, .int b] => Native.result (.int (max a b))
  | "min", [a, b] =>
    (asFloats a b).bind fun (x, y) => Native.result (.float (if x ≤ y then x else y))
  | "max", [a, b] =>
    (asFloats a b).bind fun (x, y) => Native.result (.float (if y ≤ x then x else y))
  | name, [.int n] => (intQuestion? name).bind fun f => Native.result (.bool (f n))
  | name, [.float x] =>
    match floatFunction? name with
    | some f => Native.result (.float (f x))
    | none => (floatQuestion? name).bind fun f => Native.result (.bool (f x))
  | _, _ => none

/-! ## Strings -/

/-- The place of a part in a text, counted in characters. -/
def indexOfText (part : List Char) : Nat → List Char → Int
  | n, [] => if part.isEmpty then n else -1
  | n, c :: cs => if part.isPrefixOf (c :: cs) then n else indexOfText part (n + 1) cs

/-- The pieces between the occurrences of a part, which is not empty. -/
def splitText (part piece : List Char) (skip : Nat) : List Char → List (List Char)
  | [] => [piece.reverse]
  | c :: cs =>
    match skip with
    | n + 1 => splitText part piece n cs
    | 0 =>
      if part.isPrefixOf (c :: cs) then
        piece.reverse :: splitText part [] (part.length - 1) cs
      else splitText part (c :: piece) 0 cs

/-- The words of a text. -/
def words (piece : List Char) : List Char → List (List Char)
  | [] => if piece.isEmpty then [] else [piece.reverse]
  | c :: cs =>
    if Text.isSpace c then
      if piece.isEmpty then words [] cs else piece.reverse :: words [] cs
    else words (c :: piece) cs

/-- Texts as an array. -/
def textArray (parts : List (List Char)) : Value :=
  .array (parts.map fun cs => .str (String.ofList cs))

/-- A string or a character as a text. -/
def textOf? : Value → Option (List Char)
  | .str s => some s.toList
  | .char c => some [c]
  | _ => none

/-- Functions of strings, the text of which is `cs`. -/
def textFunction (name : String) (cs : List Char) (args : List Value) : Option Native :=
  let text (cs : List Char) : Value := .str (String.ofList cs)
  match name, args with
  | "len", [] => Native.result (.int cs.length)
  | "bytes", [] => Native.result (.int (String.ofList cs).utf8ByteSize)
  | "is_empty", [] => Native.result (.bool cs.isEmpty)
  | "chars", [] => Native.result (.sealed "chars")
  | "to_upper", [] => Native.result (text (cs.map Char.toUpper))
  | "to_lower", [] => Native.result (text (cs.map Char.toLower))
  | "make_upper", [] => Native.change (text (cs.map Char.toUpper))
  | "make_lower", [] => Native.change (text (cs.map Char.toLower))
  | "trim", [] => Native.change (text (Text.trim cs))
  | "clear", [] => Native.change (text [])
  | "truncate", [.int n] => Native.change (text (cs.take n.toNat))
  | "pop", [] => Native.take ((cs.getLast?.map .char).getD .unit) (text cs.dropLast)
  | "pop", [.int n] =>
    let kept := cs.length - n.toNat
    Native.take (text (cs.drop kept)) (text (cs.take kept))
  | "append", [v] => Native.change (text (cs ++ v.text.toList))
  | "remove", [v] => (textOf? v).bind fun p =>
      Native.change (text (if p.isEmpty then cs else replaceText p [] 0 cs))
  | "get", [.int i] =>
    Native.result (((offset? cs.length i).bind fun n => cs[n]?.map .char).getD .unit)
  | "set", [.int i, .char c] =>
    Native.change (text (((offset? cs.length i).map fun n => cs.set n c).getD cs))
  | "starts_with", [.str p] => Native.result (.bool (p.toList.isPrefixOf cs))
  | "ends_with", [.str p] => Native.result (.bool (p.toList.isSuffixOf cs))
  | "index_of", [v] => (textOf? v).bind fun p => Native.result (.int (indexOfText p 0 cs))
  | "index_of", [v, .int i] => (textOf? v).bind fun p =>
      let n := clampedOffset cs.length i
      Native.result (.int (indexOfText p n (cs.drop n)))
  | "sub_string", [.int i] => Native.result (text (slice cs i cs.length))
  | "sub_string", [.int i, .int n] => Native.result (text (slice cs i n))
  | "sub_string", [.range lo hi closed] => Native.result (text (sliceRange cs lo hi closed))
  | "crop", [.int i] => Native.change (text (slice cs i cs.length))
  | "crop", [.int i, .int n] => Native.change (text (slice cs i n))
  | "crop", [.range lo hi closed] => Native.change (text (sliceRange cs lo hi closed))
  | "replace", [v, w] =>
    (textOf? v).bind fun p => (textOf? w).bind fun q =>
      Native.change (text (if p.isEmpty then cs else replaceText p q 0 cs))
  | "split", [] => Native.result (textArray (words [] cs))
  | "split", [.int i] =>
    let n := clampedOffset cs.length i
    Native.result (textArray [cs.take n, cs.drop n])
  | "split", [v] => (textOf? v).bind fun p =>
      Native.result (textArray
        (if p.isEmpty then [] :: cs.map ([·]) ++ [[]] else splitText p [] 0 cs))
  | _, _ => none

/-! ## Arrays -/

/-- Put an item in its place among sorted ones. -/
def insertSorted (before : Value → Value → Bool) (v : Value) : List Value → List Value
  | [] => [v]
  | w :: rest => if before v w then v :: w :: rest else w :: insertSorted before v rest

/-- Whether values of one type are in order. -/
def inOrder : Value → Value → Bool
  | .int a, .int b => a ≤ b
  | .float a, .float b => a ≤ b
  | .bool a, .bool b => a.toNat ≤ b.toNat
  | .char a, .char b => a.toNat ≤ b.toNat
  | .str a, .str b => !comesBefore b.toList a.toList
  | _, _ => true

/-- The place of the first item that equals a value. -/
def indexOfItem (v : Value) : Nat → List Value → Int
  | _, [] => -1
  | n, w :: rest => if w.equals v then n else indexOfItem v (n + 1) rest

/-- Items without those that equal the one before. -/
def dedup : List Value → List Value
  | [] => []
  | v :: rest =>
    match dedup rest with
    | [] => [v]
    | w :: more => if v.equals w then v :: more else v :: w :: more

/-- Functions of arrays. -/
def arrayFunction (name : String) (items : List Value) (args : List Value) : Option Native :=
  match name, args with
  | "len", [] => Native.result (.int items.length)
  | "is_empty", [] => Native.result (.bool items.isEmpty)
  | "push", [v] => Native.change (.array (items ++ [v]))
  | "append", [.array more] => Native.change (.array (items ++ more))
  | "insert", [.int i, v] =>
    let n := clampedOffset items.length i
    Native.change (.array (items.take n ++ v :: items.drop n))
  | "pop", [] => Native.take (items.getLast?.getD .unit) (.array items.dropLast)
  | "shift", [] => Native.take (items.head?.getD .unit) (.array items.tail)
  | "remove", [.int i] =>
    match offset? items.length i with
    | some n => Native.take (items.getD n .unit) (.array (items.eraseIdx n))
    | none => Native.result .unit
  | "clear", [] => Native.change (.array [])
  | "truncate", [.int n] => Native.change (.array (items.take n.toNat))
  | "chop", [.int n] => Native.change (.array (items.drop (items.length - n.toNat)))
  | "reverse", [] => Native.change (.array items.reverse)
  | "get", [.int i] =>
    Native.result (((offset? items.length i).bind fun n => items[n]?).getD .unit)
  | "set", [.int i, v] =>
    Native.change (.array (((offset? items.length i).map fun n => items.set n v).getD items))
  | "pad", [.int n, v] =>
    Native.change (.array (items ++ List.replicate (n.toNat - items.length) v))
  | "extract", [.int i] => Native.result (.array (slice items i items.length))
  | "extract", [.int i, .int n] => Native.result (.array (slice items i n))
  | "extract", [.range lo hi closed] => Native.result (.array (sliceRange items lo hi closed))
  | "index_of", [v] => Native.result (.int (indexOfItem v 0 items))
  | "dedup", [] => Native.change (.array (dedup items))
  | "sort", [] =>
    match items with
    | v :: rest =>
      if rest.any (·.typeName ≠ v.typeName) then
        some (.error (.functionNotFound "sort() cannot be called with elements of different types"))
      else Native.change (.array (items.foldr (insertSorted inOrder) []))
    | [] => Native.change (.array [])
  | _, _ => none

/-! ## Maps -/

/-- Functions of maps. -/
def mapFunction (name : String) (fields : List (String × Value)) (args : List Value) :
    Option Native :=
  match name, args with
  | "len", [] => Native.result (.int fields.length)
  | "is_empty", [] => Native.result (.bool fields.isEmpty)
  | "clear", [] => Native.change (.map [])
  | "keys", [] => Native.result (.array (fields.map fun (k, _) => .str k))
  | "values", [] => Native.result (.array (fields.map (·.2)))
  | "get", [.str k] => Native.result ((fields.lookup k).getD .unit)
  | "set", [.str k, v] => Native.change (.map (insertField k v fields))
  | "remove", [.str k] =>
    Native.take ((fields.lookup k).getD .unit) (.map (fields.filter (·.1 ≠ k)))
  | "mixin", [.map more] => Native.change (.map (joinFields fields more))
  | "fill_with", [.map more] => Native.change (.map (joinFields more fields))
  | _, _ => none

/-! ## All of them -/

/-- Functions of ranges. -/
def rangeFunction (name : String) (lo hi : Int) (closed : Bool) (args : List Value) :
    Option Native :=
  match name, args with
  | "start", [] => Native.result (.int lo)
  | "end", [] => Native.result (.int hi)
  | "is_inclusive", [] => Native.result (.bool closed)
  | "is_exclusive", [] => Native.result (.bool !closed)
  | "is_empty", [] => Native.result (.bool (if closed then hi < lo else hi ≤ lo))
  | _, _ => none

/-- Functions of values of any type. -/
def anyFunction (name : String) (args : List Value) : Option Native :=
  match name, args with
  | "type_of", [v] => Native.result (.str v.typeName)
  | "to_string", [v] => Native.result (.str v.text)
  | "to_debug", [v] => Native.result (.str v.innerText)
  | "contains", [v, w] => (v.contains? w).bind fun r => Native.result (.bool r)
  | "timestamp", [] => Native.result (.sealed "timestamp")
  | _, _ => none

/-- The functions that every script can call; `none` for an unknown one. -/
def builtin (name : String) (args : List Value) : Option Native :=
  let own := match args with
    | .str s :: rest => textFunction name s.toList rest
    | .array items :: rest => arrayFunction name items rest
    | .map fields :: rest => mapFunction name fields rest
    | .range lo hi closed :: rest => rangeFunction name lo hi closed rest
    | _ => none
  (own.orElse fun () => numberFunction name args).orElse fun () => anyFunction name args

/-- Whether a built-in function changes its first argument. -/
def changesReceiver (name : String) (args : List Value) : Bool :=
  ["push", "append", "insert", "pop", "shift", "clear", "truncate", "chop", "reverse", "set", "pad",
    "dedup", "sort", "remove", "mixin", "fill_with", "make_upper", "make_lower", "trim", "crop",
    "replace"].contains name && (builtin name args).isSome

/-- Functions that a value without arguments answers to as to a property. -/
def isGetter (v : Value) (name : String) : Bool :=
  match v with
  | .str _ => name = "len" || name = "bytes" || name = "is_empty" || name = "chars"
  | .array _ => name = "len" || name = "is_empty"
  | .int _ => (intQuestion? name).isSome
  | .float _ =>
    (floatQuestion? name).isSome ||
      name = "floor" || name = "ceiling" || name = "round" || name = "int" || name = "fraction"
  | .range .. =>
    name = "start" || name = "end" || name = "is_inclusive" || name = "is_exclusive" ||
      name = "is_empty"
  | _ => false

end LiveScene.Script
