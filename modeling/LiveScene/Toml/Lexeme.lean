import LiveScene.Decimal.Reading
import LiveScene.Toml.Value

/-!
# Keys, strings, numbers and dates of TOML

Each reader takes the characters from where it stands and answers with what
it read and the rest, or `none`. Where two forms start alike, as an integer
and a date do, `readScalar` tries the longer one first.
-/

namespace LiveScene.Toml

/-- A blank inside of a line. -/
def isBlank (c : Char) : Bool := c = ' ' || c = '\t'

/-- A character that may stand inside of a line. -/
def isPlain (c : Char) : Bool := c = '\t' || (32 ≤ c.toNat && c.toNat ≠ 127)

/-- The rest after blanks. -/
def skipBlanks (cs : List Char) : List Char := cs.dropWhile isBlank

/-- The rest after a line break. -/
def newline? : List Char → Option (List Char)
  | '\n' :: rest => some rest
  | '\r' :: '\n' :: rest => some rest
  | _ => none

/-- The rest after a comment, if one starts here. -/
def skipComment : List Char → List Char
  | '#' :: rest => rest.dropWhile isPlain
  | cs => cs

/-- The rest after blanks, a comment and the end of the line. -/
def lineEnd? (cs : List Char) : Option (List Char) :=
  match skipComment (skipBlanks cs) with
  | [] => some []
  | rest => newline? rest

/-! ## Strings -/

/-- The character of a number in hexadecimal digits. -/
def codePoint? (digits : List Char) : Option Char := do
  let n ← digits.foldlM (fun n c => do return n * 16 + (← Decimal.hexDigit? c)) 0
  if n.isValidChar then some (Char.ofNat n) else none

/-- The character behind a backslash and a letter. -/
def escaped? : Char → Option Char
  | 'b' => some '\x08'
  | 't' => some '\t'
  | 'n' => some '\n'
  | 'f' => some '\x0c'
  | 'r' => some '\r'
  | '"' => some '"'
  | '\\' => some '\\'
  | _ => none

/-- The rest of a string on one line, after what was read in reverse. -/
def readLine (done : List Char) : List Char → Option (String × List Char)
  | [] => none
  | '"' :: rest => some (String.ofList done.reverse, rest)
  | '\\' :: 'u' :: a :: b :: c :: d :: rest => do
    readLine ((← codePoint? [a, b, c, d]) :: done) rest
  | '\\' :: 'U' :: a :: b :: c :: d :: e :: f :: g :: h :: rest => do
    readLine ((← codePoint? [a, b, c, d, e, f, g, h]) :: done) rest
  | '\\' :: e :: rest => do readLine ((← escaped? e) :: done) rest
  | c :: rest => if isPlain c then readLine (c :: done) rest else none

/-- Up to two quotes before the closing ones belong to a string of many lines. -/
def closeBlock (quote : Char) (done rest : List Char) : String × List Char :=
  let more := (rest.take 2).takeWhile (· = quote)
  (String.ofList (done.reverse ++ more), rest.drop more.length)

/-- The rest of a string of many lines. In a `gap`, after a backslash at the
end of a line, blanks and line breaks are left out. -/
def readBlock (gap : Bool) (done : List Char) : List Char → Option (String × List Char)
  | [] => none
  | '"' :: '"' :: '"' :: rest => some (closeBlock '"' done rest)
  | '\r' :: '\n' :: rest =>
    if gap then readBlock gap done rest else readBlock gap ('\n' :: done) rest
  | '\n' :: rest => if gap then readBlock gap done rest else readBlock gap ('\n' :: done) rest
  | '\\' :: 'u' :: a :: b :: c :: d :: rest => do
    readBlock false ((← codePoint? [a, b, c, d]) :: done) rest
  | '\\' :: 'U' :: a :: b :: c :: d :: e :: f :: g :: h :: rest => do
    readBlock false ((← codePoint? [a, b, c, d, e, f, g, h]) :: done) rest
  | '\\' :: e :: rest =>
    if (newline? (skipBlanks (e :: rest))).isSome then readBlock true done (e :: rest)
    else do readBlock false ((← escaped? e) :: done) rest
  | c :: rest =>
    if gap && isBlank c then readBlock gap done rest
    else if isPlain c then readBlock false (c :: done) rest
    else none

/-- The rest of a literal string on one line. -/
def readRawLine (cs : List Char) : Option (String × List Char) :=
  match cs.dropWhile (fun c => isPlain c && c ≠ '\'') with
  | '\'' :: rest => some (String.ofList (cs.takeWhile fun c => isPlain c && c ≠ '\''), rest)
  | _ => none

/-- The rest of a literal string of many lines. -/
def readRawBlock (done : List Char) : List Char → Option (String × List Char)
  | [] => none
  | '\'' :: '\'' :: '\'' :: rest => some (closeBlock '\'' done rest)
  | '\r' :: '\n' :: rest => readRawBlock ('\n' :: done) rest
  | c :: rest => if isPlain c || c = '\n' then readRawBlock (c :: done) rest else none

/-- The rest after a line break, if one starts here. -/
def skipNewline (cs : List Char) : List Char := (newline? cs).getD cs

/-- A string of any of the four forms. -/
def readString : List Char → Option (String × List Char)
  | '"' :: '"' :: '"' :: rest => readBlock false [] (skipNewline rest)
  | '"' :: rest => readLine [] rest
  | '\'' :: '\'' :: '\'' :: rest => readRawBlock [] (skipNewline rest)
  | '\'' :: rest => readRawLine rest
  | _ => none

/-! ## Keys -/

/-- A character of a key without quotes. -/
def isKeyChar (c : Char) : Bool := c.isAlphanum || c = '-' || c = '_'

/-- One part of a key. -/
def readKey : List Char → Option (String × List Char)
  | '"' :: rest => readLine [] rest
  | '\'' :: rest => readRawLine rest
  | cs =>
    let name := cs.takeWhile isKeyChar
    if name.isEmpty then none else some (String.ofList name, cs.dropWhile isKeyChar)

/-- The parts of a key from the next one on, as far as the fuel reaches. -/
def readParts : Nat → List Char → Option (List String × List Char)
  | 0, _ => none
  | fuel + 1, cs => do
    let (name, rest) ← readKey (skipBlanks cs)
    match skipBlanks rest with
    | '.' :: rest => do
      let (names, rest) ← readParts fuel rest
      return (name :: names, rest)
    | rest => return ([name], rest)

/-- How deep tables and arrays may be nested. -/
def maxDepth : Nat := 79

/-- A key: one part, or more with dots between them. -/
def readKeys (cs : List Char) : Option (List String × List Char) :=
  readParts maxDepth cs

/-! ## Numbers and dates -/

/-- Digits, with single underscores between them. -/
def moreDigits (isDigit : Char → Bool) : List Char → List Char × List Char
  | [] => ([], [])
  | '_' :: c :: rest =>
    if isDigit c then
      let (ds, rest) := moreDigits isDigit rest
      (c :: ds, rest)
    else ([], '_' :: c :: rest)
  | c :: rest =>
    if isDigit c then
      let (ds, rest) := moreDigits isDigit rest
      (c :: ds, rest)
    else ([], c :: rest)

/-- At least one digit, with single underscores between digits. -/
def readDigits (isDigit : Char → Bool) : List Char → Option (List Char × List Char)
  | c :: rest =>
    if isDigit c then
      let (ds, rest) := moreDigits isDigit rest
      some (c :: ds, rest)
    else none
  | [] => none

/-- An optional sign: whether it is a minus, and the rest. -/
def readSign : List Char → Bool × List Char
  | '-' :: rest => (true, rest)
  | '+' :: rest => (false, rest)
  | cs => (false, cs)

/-- The digits of a decimal number, without zeros in front of others. -/
def readWhole : List Char → Option (List Char × List Char)
  | '0' :: rest => some (['0'], rest)
  | cs => readDigits Char.isDigit cs

/-- An exponent. -/
def readExponent : List Char → Option (Int × List Char)
  | c :: rest =>
    if c = 'e' ∨ c = 'E' then do
      let (negative, rest) := readSign rest
      let (digits, rest) ← readDigits Char.isDigit rest
      let n := Decimal.value digits
      return (if negative then -(n : Int) else n, rest)
    else none
  | [] => none

/-- A float with digits. Numbers above all floats are refused. -/
def readDigitFloat (cs : List Char) : Option (Value × List Char) := do
  let (negative, cs) := readSign cs
  let (whole, rest) ← readWhole cs
  let (fraction, rest) ← match rest with
    | '.' :: rest => readDigits Char.isDigit rest
    | rest => if (readExponent rest).isSome then some ([], rest) else none
  let (e, rest) := (readExponent rest).getD (0, rest)
  let x := Decimal.toFloat negative (Decimal.value (whole ++ fraction)) (e - fraction.length)
  if x.isInf && !negative then none else return (.float x, rest)

/-- Infinity, or what is not a number. -/
def readNamedFloat (cs : List Char) : Option (Value × List Char) :=
  let (negative, cs) := readSign cs
  match cs with
  | 'i' :: 'n' :: 'f' :: rest => some (.float (if negative then -1.0 / 0.0 else 1.0 / 0.0), rest)
  | 'n' :: 'a' :: 'n' :: rest => some (.float (0.0 / 0.0), rest)
  | _ => none

/-- A number in another base than ten, after its sign-free start. -/
def readBased (base : Nat) (cs : List Char) : Option (Value × List Char) := do
  let digit? (c : Char) : Option Nat := (Decimal.hexDigit? c).filter (· < base)
  let (digits, rest) ← readDigits (fun c => (digit? c).isSome) cs
  let n := digits.foldl (fun n c => n * base + (digit? c).getD 0) 0
  if n < Nat.pow 2 63 then return (.int n, rest) else none

/-- An integer of 64 bits. -/
def readInt : List Char → Option (Value × List Char)
  | '0' :: 'x' :: rest => readBased 16 rest
  | '0' :: 'o' :: rest => readBased 8 rest
  | '0' :: 'b' :: rest => readBased 2 rest
  | cs => do
    let (negative, cs) := readSign cs
    let (digits, rest) ← readWhole cs
    let n := Decimal.value digits
    if n < Nat.pow 2 63 ∨ (negative ∧ n = Nat.pow 2 63) then
      return (.int (if negative then -(n : Int) else n), rest)
    else none

/-- Exactly so many digits, with a value in a range. -/
def readField (count lo hi : Nat) (cs : List Char) : Option (Nat × List Char) :=
  let digits := cs.take count
  let n := Decimal.value digits
  if digits.length = count ∧ digits.all Char.isDigit ∧ lo ≤ n ∧ n ≤ hi then
    some (n, cs.drop count)
  else none

/-- The rest after a character that must stand here. -/
def expect (c : Char) : List Char → Option (List Char)
  | d :: rest => if c = d then some rest else none
  | [] => none

/-- The days of a month. -/
def daysIn (year month : Nat) : Nat :=
  if month = 2 then
    if year % 4 = 0 ∧ (year % 100 ≠ 0 ∨ year % 400 = 0) then 29 else 28
  else if month = 4 ∨ month = 6 ∨ month = 9 ∨ month = 11 then 30
  else 31

/-- The rest after a date. -/
def skipDate (cs : List Char) : Option (List Char) := do
  let (year, cs) ← readField 4 0 9999 cs
  let (month, cs) ← readField 2 1 12 (← expect '-' cs)
  let (_, cs) ← readField 2 1 (daysIn year month) (← expect '-' cs)
  return cs

/-- The rest after a fraction of a second, if there is one. -/
def skipFraction : List Char → List Char
  | '.' :: c :: rest => if c.isDigit then rest.dropWhile Char.isDigit else '.' :: c :: rest
  | cs => cs

/-- The rest after a time of day. A minute may have a leap second. -/
def skipTime (cs : List Char) : Option (List Char) := do
  let (_, cs) ← readField 2 0 23 cs
  let (_, cs) ← readField 2 0 59 (← expect ':' cs)
  let (_, cs) ← readField 2 0 60 (← expect ':' cs)
  return skipFraction cs

/-- The rest after an offset from universal time. -/
def skipOffset : List Char → Option (List Char)
  | c :: rest =>
    if c = 'Z' ∨ c = 'z' then some rest
    else if c = '+' ∨ c = '-' then do
      let (_, cs) ← readField 2 0 23 rest
      let (_, cs) ← readField 2 0 59 (← expect ':' cs)
      return cs
    else none
  | [] => none

/-- The rest after the time that follows a date, if one does. -/
def skipTimeOfDate : List Char → List Char
  | c :: rest =>
    if c = 'T' ∨ c = 't' ∨ c = ' ' then
      match skipTime rest with
      | some rest => (skipOffset rest).getD rest
      | none => c :: rest
    else c :: rest
  | [] => []

/-- A date, a time of day, or both. -/
def readMoment (cs : List Char) : Option (Value × List Char) := do
  let rest ← ((skipDate cs).map skipTimeOfDate).or (skipTime cs)
  return (.moment (String.ofList (cs.take (cs.length - rest.length))), rest)

/-- A truth value. -/
def readBool : List Char → Option (Value × List Char)
  | 't' :: 'r' :: 'u' :: 'e' :: rest => some (.bool true, rest)
  | 'f' :: 'a' :: 'l' :: 's' :: 'e' :: rest => some (.bool false, rest)
  | _ => none

/-- A value without others inside. -/
def readScalar (cs : List Char) : Option (Value × List Char) :=
  ((readString cs).map fun (s, rest) => (.str s, rest)) <|>
    readBool cs <|> readMoment cs <|> readDigitFloat cs <|> readNamedFloat cs <|> readInt cs

end LiveScene.Toml
