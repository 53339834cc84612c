import LiveScene.Json
import LiveScene.Decimal.Reading

/-!
# JSON text to values

A strict reader: one value, blanks around it, nothing after it. Nesting is
limited by `maxDepth`. Control characters inside strings, lone surrogates
and numbers too large for a float are refused. A whole number that fits
neither 64-bit range becomes a float, and so does `-0`.

The reader works on the characters that are left. `fuel` bounds the
recursion of arrays and objects; every round takes a character, so the
length of the text is enough.
-/

namespace LiveScene.Json

/-- Levels of arrays and objects a text may nest. -/
def maxDepth : Nat := 127

/-- A blank between tokens. -/
def isBlank (c : Char) : Bool := c = ' ' || c = '\n' || c = '\r' || c = '\t'

/-- The text from its first character that is not a blank. -/
def skipBlanks (cs : List Char) : List Char := cs.dropWhile isBlank

/-- The number that four hexadecimal digits write. -/
def hexUnit? (a b c d : Char) : Option Nat := do
  let digits ← [a, b, c, d].mapM Decimal.hexDigit?
  return digits.foldl (fun n digit => n * 16 + digit) 0

/-- The character of a one-letter escape. -/
def escaped? : Char → Option Char
  | '"' => some '"'
  | '\\' => some '\\'
  | '/' => some '/'
  | 'b' => some '\x08'
  | 'f' => some '\x0c'
  | 'n' => some '\n'
  | 'r' => some '\r'
  | 't' => some '\t'
  | _ => none

/-- The rest of a string whose opening quote has been read; `done` is what
was read of it so far, newest first. -/
def readString (done : List Char) : List Char → Option (String × List Char)
  | [] => none
  | '"' :: rest => some (String.ofList done.reverse, rest)
  | '\\' :: 'u' :: a :: b :: c :: d :: rest =>
    match hexUnit? a b c d with
    | none => none
    | some hi =>
      if 0xD800 ≤ hi ∧ hi < 0xDC00 then
        match rest with
        | '\\' :: 'u' :: e :: f :: g :: h :: rest' =>
          match hexUnit? e f g h with
          | none => none
          | some lo =>
            if 0xDC00 ≤ lo ∧ lo < 0xE000 then
              let code := 0x10000 + (hi - 0xD800) * 0x400 + (lo - 0xDC00)
              readString (Char.ofNat code :: done) rest'
            else none
        | _ => none
      else if 0xDC00 ≤ hi ∧ hi < 0xE000 then none
      else readString (Char.ofNat hi :: done) rest
  | '\\' :: c :: rest =>
    match escaped? c with
    | none => none
    | some e => readString (e :: done) rest
  | c :: rest => if c.toNat < 0x20 then none else readString (c :: done) rest

/-- The whole number as a value: an integer where one of the 64-bit ranges
holds it, a float otherwise. -/
def ofWhole? (negative : Bool) (digits : List Char) : Option Json :=
  let n := Decimal.value digits
  if negative then
    if n = 0 then some (.float (-0.0))
    else if n ≤ 9223372036854775808 then some (.int (-(n : Int)))
    else (Decimal.toFloat? true n 0).map .float
  else if n ≤ maxSize then some (.int n)
  else (Decimal.toFloat? false n 0).map .float

/-- A number: sign, whole part without superfluous zeros, fraction, exponent. -/
def readNumber (cs : List Char) : Option (Json × List Char) :=
  let negative := cs.head? = some '-'
  let cs := if negative then cs.tail else cs
  let whole := cs.takeWhile Char.isDigit
  let cs := cs.dropWhile Char.isDigit
  if whole = [] ∨ (whole.head? = some '0' ∧ whole ≠ ['0']) then none
  else
    let fraction? : Option (List Char × List Char) :=
      match cs with
      | '.' :: rest =>
        if rest.takeWhile Char.isDigit = [] then none
        else some (rest.takeWhile Char.isDigit, rest.dropWhile Char.isDigit)
      | _ => some ([], cs)
    match fraction? with
    | none => none
    | some (fraction, cs) =>
      let exponent? : Option (Option Int × List Char) :=
        match cs with
        | c :: rest =>
          if c = 'e' ∨ c = 'E' then
            let minus := rest.head? = some '-'
            let rest := if minus ∨ rest.head? = some '+' then rest.tail else rest
            let digits := rest.takeWhile Char.isDigit
            if digits = [] then none
            else
              let e : Int := Decimal.value digits
              some (some (if minus then -e else e), rest.dropWhile Char.isDigit)
          else some (none, cs)
        | [] => some (none, cs)
      match exponent? with
      | none => none
      | some (exponent, cs) =>
        if fraction = [] ∧ exponent.isNone then (ofWhole? negative whole).map (·, cs)
        else
          (Decimal.toFloat? negative (Decimal.value (whole ++ fraction))
            (exponent.getD 0 - fraction.length)).map (Json.float ·, cs)

mutual

/-- One value, with `depth` more levels allowed below it. -/
def readValue (fuel depth : Nat) (cs : List Char) : Option (Json × List Char) :=
  match fuel with
  | 0 => none
  | fuel + 1 =>
    match skipBlanks cs with
    | 'n' :: 'u' :: 'l' :: 'l' :: rest => some (.null, rest)
    | 't' :: 'r' :: 'u' :: 'e' :: rest => some (.bool true, rest)
    | 'f' :: 'a' :: 'l' :: 's' :: 'e' :: rest => some (.bool false, rest)
    | '"' :: rest => (readString [] rest).map fun (s, rest) => (.str s, rest)
    | '[' :: rest =>
      match depth with
      | 0 => none
      | depth + 1 =>
        match skipBlanks rest with
        | ']' :: rest => some (.arr [], rest)
        | rest => readItems fuel depth [] rest
    | '\x7b' :: rest =>
      match depth with
      | 0 => none
      | depth + 1 =>
        match skipBlanks rest with
        | '\x7d' :: rest => some (.obj [], rest)
        | rest => readFields fuel depth [] rest
    | rest => readNumber rest

/-- The items of an array up to its closing bracket. -/
def readItems (fuel depth : Nat) (done : List Json) (cs : List Char) : Option (Json × List Char) :=
  match fuel with
  | 0 => none
  | fuel + 1 =>
    match readValue fuel depth cs with
    | none => none
    | some (v, rest) =>
      match skipBlanks rest with
      | ',' :: rest => readItems fuel depth (v :: done) rest
      | ']' :: rest => some (.arr (v :: done).reverse, rest)
      | _ => none

/-- The fields of an object up to its closing brace. -/
def readFields (fuel depth : Nat) (done : List (String × Json)) (cs : List Char) :
    Option (Json × List Char) :=
  match fuel with
  | 0 => none
  | fuel + 1 =>
    match skipBlanks cs with
    | '"' :: rest =>
      match readString [] rest with
      | none => none
      | some (name, rest) =>
        match skipBlanks rest with
        | ':' :: rest =>
          match readValue fuel depth rest with
          | none => none
          | some (v, rest) =>
            match skipBlanks rest with
            | ',' :: rest => readFields fuel depth ((name, v) :: done) rest
            | '\x7d' :: rest => some (.obj ((name, v) :: done).reverse, rest)
            | _ => none
        | _ => none
    | _ => none

end

/-- The value a text writes, `none` if the text is not JSON. Repeated fields
are kept as they stand. -/
def parse? (text : String) : Option Json :=
  let cs := text.toList
  match readValue (2 * cs.length + 2) maxDepth cs with
  | some (v, rest) => if skipBlanks rest = [] then some v else none
  | none => none

end LiveScene.Json
