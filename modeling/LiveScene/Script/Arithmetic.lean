import LiveScene.Decimal.Remainder
import LiveScene.Script.Fault

/-!
# Operators

Whole numbers have 64 bits and every operation on them is checked. An
operation on a whole number and a float is one on floats. Strings join with
anything. Values of different types are unequal and not ordered, apart from
numbers among each other and characters with strings.

`binaryOp` and `unaryOp` give the result or the cause why there is none; a
pair of types an operator has no meaning for is a function not found.
-/

namespace LiveScene.Script

/-- The result of an operation, or the cause why there is none. -/
abbrev Computed := Except Cause

/-- A failure of arithmetic on two numbers. -/
def arithmeticFault (what : String) (a : Int) (op : String) (b : Int) : Cause :=
  .arithmetic (what ++ ": " ++ toString a ++ " " ++ op ++ " " ++ toString b)

/-- The number if it fits, else the overflow of the operation. -/
def checked (what : String) (a : Int) (op : String) (b n : Int) : Computed Value :=
  if fitsInt n then .ok (.int n) else .error (arithmeticFault (what ++ " overflow") a op b)

/-- The power of whole numbers. A base other than 0, 1 and -1 overflows with
any exponent of 64 and more, so the power is not computed then. -/
def intPower (a b : Int) : Computed Value :=
  if 4294967295 < b then .error (arithmeticFault "Exponential overflow" a "**" b)
  else if b < 0 then .error (arithmeticFault "Integer raised to a negative power" a "**" b)
  else if a = 0 ∨ a = 1 then .ok (.int (if b = 0 then 1 else a))
  else if a = -1 then .ok (.int (if b % 2 = 0 then 1 else -1))
  else if 64 ≤ b then .error (arithmeticFault "Exponential overflow" a "**" b)
  else checked "Exponential" a "**" b (Int.pow a b.toNat)

/-- A shift to the left by `b` bits, or to the right by a negative number. -/
def intShift (a b : Int) : Int :=
  if 0 ≤ b then
    if 64 ≤ b then 0 else ((BitVec.ofInt 64 a) <<< b.toNat).toInt
  else if b ≤ -64 then (if a < 0 then -1 else 0)
  else Int.fdiv a (Int.pow 2 (-b).toNat)

/-- Bits of two whole numbers put together. -/
def bitwise (f : BitVec 64 → BitVec 64 → BitVec 64) (a b : Int) : Value :=
  .int (f (.ofInt 64 a) (.ofInt 64 b)).toInt

/-- An operation on whole numbers; `none` if the operator is none of them. -/
def intOp (op : String) (a b : Int) : Option (Computed Value) :=
  match op with
  | "+" => some (checked "Addition" a op b (a + b))
  | "-" => some (checked "Subtraction" a op b (a - b))
  | "*" => some (checked "Multiplication" a op b (a * b))
  | "/" =>
    some <|
      if b = 0 then .error (arithmeticFault "Division by zero" a op b)
      else checked "Division" a op b (Int.tdiv a b)
  | "%" =>
    some <|
      if b = 0 ∨ (a = minInt ∧ b = -1) then
        .error (arithmeticFault "Modulo division by zero or overflow" a op b)
      else .ok (.int (Int.tmod a b))
  | "**" => some (intPower a b)
  | "<<" => some (.ok (.int (intShift a b)))
  | ">>" => some (.ok (.int (intShift a (-b))))
  | "&" => some (.ok (bitwise (· &&& ·) a b))
  | "|" => some (.ok (bitwise (· ||| ·) a b))
  | "^" => some (.ok (bitwise (· ^^^ ·) a b))
  | ".." => some (.ok (.range a b false))
  | "..=" => some (.ok (.range a b true))
  | _ => none

/-- An operation on floats; `none` if the operator is none of them. -/
def floatOp (op : String) (a b : Float) : Option Value :=
  match op with
  | "+" => some (.float (a + b))
  | "-" => some (.float (a - b))
  | "*" => some (.float (a * b))
  | "/" => some (.float (a / b))
  | "%" => some (.float (Decimal.remainder a b))
  | "**" => some (.float (a.pow b))
  | _ => none

/-- The two values as floats, if they are numbers and not both whole. -/
def asFloats : Value → Value → Option (Float × Float)
  | .float a, .float b => some (a, b)
  | .float a, .int b => some (a, Float.ofInt b)
  | .int a, .float b => some (Float.ofInt a, b)
  | _, _ => none

/-- The two values as strings, if they are strings or characters. -/
def asStrings : Value → Value → Option (String × String)
  | .str a, .str b => some (a, b)
  | .str a, .char b => some (a, String.singleton b)
  | .char a, .str b => some (String.singleton a, b)
  | .char a, .char b => some (String.singleton a, String.singleton b)
  | _, _ => none

mutual

/-- Whether two values are equal. -/
def Value.equals : Value → Value → Bool
  | .unit, .unit => true
  | .bool a, .bool b => a = b
  | .int a, .int b => a = b
  | .array a, .array b => itemsEqual a b
  | .map a, .map b => fieldsEqual a b
  | .range a b c, .range a' b' c' => a = a' && b = b' && c = c'
  | .float a, .float b => a == b
  | .float a, .int b => a == Float.ofInt b
  | .int a, .float b => Float.ofInt a == b
  | .str a, .str b => a = b
  | .str a, .char b => a = String.singleton b
  | .char a, .str b => String.singleton a = b
  | .char a, .char b => a = b
  | _, _ => false

/-- Whether items are equal in pairs. -/
def itemsEqual : List Value → List Value → Bool
  | [], [] => true
  | a :: as, b :: bs => a.equals b && itemsEqual as bs
  | _, _ => false

/-- Whether entries are equal in pairs. -/
def fieldsEqual : List (String × Value) → List (String × Value) → Bool
  | [], [] => true
  | (k, a) :: as, (l, b) :: bs => k = l && a.equals b && fieldsEqual as bs
  | _, _ => false

end

/-- Compare by an operator that is an order. -/
def compareBy {α : Type} [LT α] [LE α] [DecidableLT α] [DecidableLE α] (op : String) (a b : α) :
    Bool :=
  match op with
  | "<" => a < b
  | "<=" => a ≤ b
  | ">" => b < a
  | _ => b ≤ a

/-- Whether a text comes before another one, by its first differing character. -/
def comesBefore : List Char → List Char → Bool
  | _, [] => false
  | [], _ :: _ => true
  | a :: as, b :: bs => a < b || (a = b && comesBefore as bs)

/-- Compare texts by an operator that is an order. -/
def compareTexts (op : String) (a b : List Char) : Bool :=
  match op with
  | "<" => comesBefore a b
  | "<=" => !comesBefore b a
  | ">" => comesBefore b a
  | _ => !comesBefore a b

/-- An order of two values; `none` if their types have none. -/
def orderOp (op : String) (a b : Value) : Option Bool :=
  match a, b with
  | .int a, .int b => some (compareBy op a b)
  | .bool a, .bool b => some (compareBy op a.toNat b.toNat)
  | .unit, .unit => some false
  | a, b =>
    match asFloats a b with
    | some (x, y) => some (compareBy op x y)
    | none => (asStrings a b).map fun (x, y) => compareTexts op x.toList y.toList

/-- Whether an operator is an order. -/
def isOrder (op : String) : Bool := op = "<" || op = "<=" || op = ">" || op = ">="

/-- The entries of both maps; where both have a key, that of the second. -/
def joinFields (a b : List (String × Value)) : List (String × Value) :=
  b.foldl (fun done (k, v) => insertField k v done) a

/-- Whether a string holds another one. -/
def holdsText (part : List Char) : List Char → Bool
  | [] => part.isEmpty
  | c :: cs => part.isPrefixOf (c :: cs) || holdsText part cs

/-- The text with every occurrence of a part, which is not empty, replaced.
The first `skip` characters belong to an occurrence already. -/
def replaceText (part new : List Char) (skip : Nat) : List Char → List Char
  | [] => []
  | c :: cs =>
    match skip with
    | n + 1 => replaceText part new n cs
    | 0 =>
      if part.isPrefixOf (c :: cs) then new ++ replaceText part new (part.length - 1) cs
      else c :: replaceText part new 0 cs

/-- A string without the occurrences of another one. Where one of the two is
empty it is the other one. -/
def withoutText (s t : String) : String :=
  if t.isEmpty then s
  else if s.isEmpty then t
  else String.ofList (replaceText t.toList [] 0 s.toList)

/-- Whether a container holds a value; `none` if it is no container for it. -/
def Value.contains? : Value → Value → Option Bool
  | .array items, v => some (items.any (·.equals v))
  | .map fields, .str k => some (fields.any (·.1 = k))
  | .str s, .str t => some (holdsText t.toList s.toList)
  | .str s, .char c => some (s.toList.contains c)
  | .range lo hi closed, .int n => some (lo ≤ n && (n < hi || (closed && n = hi)))
  | _, _ => none

/-- An operation on values that are no numbers; `none` if it has no meaning. -/
def otherOp (op : String) (a b : Value) : Option Value :=
  match op, a, b with
  | "+", .array x, .array y => some (.array (x ++ y))
  | "+", .map x, .map y => some (.map (joinFields x y))
  | "+", .str x, y => some (.str (x ++ y.text))
  | "+", x, .str y => some (.str (x.text ++ y))
  | "-", .str x, .str y => some (.str (withoutText x y))
  | "-", .str x, .char y => some (.str (String.ofList (x.toList.filter (· ≠ y))))
  | "+", .char x, .char y => some (.str (String.ofList [x, y]))
  | "&", .bool x, .bool y => some (.bool (x && y))
  | "|", .bool x, .bool y => some (.bool (x || y))
  | "^", .bool x, .bool y => some (.bool (x ^^ y))
  | _, _, _ => none

/-- The result of an operator between two values. -/
def binaryOp (op : String) (a b : Value) : Computed Value :=
  let missing : Computed Value := .error (.functionNotFound (Value.signature op [a, b]))
  if op = "==" then .ok (.bool (a.equals b))
  else if op = "!=" then .ok (.bool (!a.equals b))
  else if op = "in" then
    match b.contains? a with
    | some r => .ok (.bool r)
    | none => .error (.functionNotFound (Value.signature "contains" [b, a]))
  else if isOrder op then
    match orderOp op a b with
    | some r => .ok (.bool r)
    | none => if a.typeName = b.typeName then missing else .ok (.bool false)
  else
    match a, b with
    | .int x, .int y => (intOp op x y).getD missing
    | a, b =>
      match asFloats a b with
      | some (x, y) => ((floatOp op x y).map .ok).getD missing
      | none => ((otherOp op a b).map .ok).getD missing

/-- The result of an operator in front of a value. -/
def unaryOp (op : String) (a : Value) : Computed Value :=
  match op, a with
  | "-", .int n =>
    if fitsInt (-n) then .ok (.int (-n))
    else .error (.arithmetic ("Negation overflow: -" ++ toString n))
  | "-", .float x => .ok (.float (-x))
  | "+", .int n => .ok (.int n)
  | "+", .float x => .ok (.float x)
  | "!", .bool b => .ok (.bool (!b))
  | op, a => .error (.functionNotFound (Value.signature op [a]))

/-- The result of an assignment by an operator. An array takes any value that
is not an array as one more item. -/
def assignOp (op : String) (a b : Value) : Computed Value :=
  match op, a, b with
  | "+", .array x, .array y => .ok (.array (x ++ y))
  | "+", .array x, v => .ok (.array (x ++ [v]))
  | op, a, b => binaryOp op a b

end LiveScene.Script
