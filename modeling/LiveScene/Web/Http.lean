import LiveScene.Web.Url

/-!
# Requests and answers as bytes

The bytes that post a body to an address, and the answer that bytes hold. An
answer says in its head how long its body is: by a number, in chunks, or until
the bytes end. A body that ends before that is broken off. Answers that only
announce another one are passed over.
-/

namespace LiveScene.Web

/-- The bytes that post a JSON text to an address and ask for one answer. -/
def postBytes (u : Url) (body : String) : ByteArray :=
  let line (name value : String) : String := name ++ ": " ++ value ++ "\r\n"
  ("POST " ++ u.target ++ " HTTP/1.1\r\n" ++ line "host" u.authority ++
    line "content-type" "application/json" ++
    line "content-length" (toString body.utf8ByteSize) ++ line "accept" "*/*" ++
    line "connection" "close" ++ "\r\n" ++ body).toUTF8

/-- An answer: its status, and its body unless that is broken off. -/
structure Response where
  status : Nat
  body : Option (List UInt8)
  deriving Repr, Inhabited

/-- The bytes before the first end of a line, and those after it. -/
def splitLine : List UInt8 → Option (List UInt8 × List UInt8)
  | 13 :: 10 :: rest => some ([], rest)
  | b :: rest => do
    let (line, rest) ← splitLine rest
    return (b :: line, rest)
  | [] => none

/-- Bytes as characters, one each, in small letters. -/
def asciiText (bytes : List UInt8) : List Char :=
  bytes.map fun b => (Char.ofNat b.toNat).toLower

/-- The lines of a head up to the empty one, and the bytes after it. -/
def splitHead : Nat → List UInt8 → Option (List (List Char) × List UInt8)
  | 0, _ => none
  | fuel + 1, bytes => do
    let (line, rest) ← splitLine bytes
    if line.isEmpty then return ([], rest)
    let (lines, rest) ← splitHead fuel rest
    return (asciiText line :: lines, rest)

/-- The text without spaces at its ends. -/
def trimSpaces (cs : List Char) : List Char :=
  ((cs.dropWhile (· = ' ')).reverse.dropWhile (· = ' ')).reverse

/-- The value of a header. -/
def header? (name : String) (lines : List (List Char)) : Option (List Char) :=
  lines.findSome? fun line =>
    if line.takeWhile (· ≠ ':') = name.toList then
      some (trimSpaces ((line.dropWhile (· ≠ ':')).drop 1))
    else none

/-- The status in the first line of a head. -/
def status? (line : List Char) : Option Nat :=
  let digits := (line.dropWhile (· ≠ ' ')).drop 1 |>.takeWhile Char.isDigit
  if digits.length = 3 then some (Decimal.value digits) else none

/-- The body in chunks, if it ends. -/
def chunks? : Nat → List UInt8 → Option (List UInt8)
  | 0, _ => none
  | fuel + 1, bytes => do
    let (line, rest) ← splitLine bytes
    let size ← number? 16 ((asciiText line).takeWhile fun c => c ≠ ';' && c ≠ ' ')
    if size = 0 then return []
    if rest.length < size + 2 then none
    return rest.take size ++ (← chunks? fuel (rest.drop (size + 2)))

/-- The body after a head. -/
def body? (lines : List (List Char)) (bytes : List UInt8) : Option (List UInt8) :=
  match header? "transfer-encoding" lines, header? "content-length" lines with
  | some coding, _ =>
    if coding = "chunked".toList then chunks? (bytes.length + 1) bytes else some bytes
  | none, some n =>
    let size := Decimal.value (n.takeWhile Char.isDigit)
    if bytes.length < size then none else some (bytes.take size)
  | none, none => some bytes

/-- The answer that bytes hold, as far as the fuel reaches: nothing if its head
is not whole. -/
def readResponse : Nat → List UInt8 → Option Response
  | 0, _ => none
  | fuel + 1, bytes => do
    let (lines, rest) ← splitHead (bytes.length + 1) bytes
    let status ← status? (← lines.head?)
    if 100 ≤ status ∧ status < 200 ∧ status ≠ 101 then readResponse fuel rest
    else return ⟨status, body? lines.tail rest⟩

/-- The answer that all bytes of a connection hold. -/
def Response.ofBytes? (bytes : List UInt8) : Option Response :=
  readResponse (bytes.length + 1) bytes

/-- The character that stands for bytes that are none. -/
def replacement : Char := '\ufffd'

/-- The text that bytes write; bytes that write nothing are replaced. -/
def lossyText : Nat → List UInt8 → List Char
  | 0, _ => []
  | _, [] => []
  | fuel + 1, bytes =>
    match [1, 2, 3, 4].findSome? fun n =>
      (String.fromUTF8? ⟨(bytes.take n).toArray⟩).map fun s => (s.toList, n) with
    | some (cs, n) => cs ++ lossyText fuel (bytes.drop n)
    | none => replacement :: lossyText fuel (bytes.drop 1)

/-- The text of a body. -/
def Response.text (bytes : List UInt8) : String := String.ofList (lossyText bytes.length bytes)

end LiveScene.Web
