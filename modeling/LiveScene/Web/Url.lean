import LiveScene.Decimal.Reading

/-!
# Addresses on the web

A `Url` is an address of a host, taken apart and written the one way it is
written on the wire: names in small letters, numbers of hosts in full, steps
like `..` taken, the usual port left out, and characters that may not stand
in a place written by their bytes. `Url.parse` also tells an address of
another kind from a text that is no address at all.
-/

namespace LiveScene.Web

/-! ## Characters -/

/-- The digit of a number below sixteen, in capitals. -/
def hexChar (n : Nat) : Char :=
  if n < 10 then Char.ofNat (48 + n) else Char.ofNat (55 + n)

/-- The bytes of a character, each as a percent sign and two digits. -/
def percentEncode (c : Char) : List Char :=
  (String.singleton c).toUTF8.toList.flatMap fun b =>
    ['%', hexChar (b.toNat / 16), hexChar (b.toNat % 16)]

/-- The text with the characters of a set written by their bytes. -/
def encodeBy (set : Char → Bool) (cs : List Char) : List Char :=
  cs.flatMap fun c => if set c then percentEncode c else [c]

/-- Control characters and what is beyond ASCII. -/
def isOutside (c : Char) : Bool := c.toNat < 32 || 126 < c.toNat

/-- What may not stand in the part after `#`. -/
def fragmentSet (c : Char) : Bool := isOutside c || " \"<>\x60".toList.contains c

/-- What may not stand in a query. -/
def querySet (c : Char) : Bool := isOutside c || " \"#<>\x27".toList.contains c

/-- What may not stand in a path. -/
def pathSet (c : Char) : Bool := isOutside c || " \"#<>?\x60\x7b\x7d".toList.contains c

/-- What may not stand in the name of a host. -/
def badInHost (c : Char) : Bool :=
  c.toNat ≤ 32 || c.toNat = 127 || "#/:<>?@[\\]^|%".toList.contains c

/-! ## Hosts -/

/-- The pieces of a text between the places of a character. -/
def pieces (sep : Char) : List Char → List (List Char)
  | [] => [[]]
  | c :: rest =>
    if c = sep then [] :: pieces sep rest
    else
      match pieces sep rest with
      | [] => [[c]]
      | p :: ps => (c :: p) :: ps

/-- The value of digits in a base. -/
def number? (base : Nat) (cs : List Char) : Option Nat :=
  cs.foldlM (fun n c => do
    let d ← Decimal.hexDigit? c
    if d < base then return n * base + d else none) 0

/-- One number of a host: decimal, octal after `0`, hexadecimal after `0x`. -/
def hostNumber? : List Char → Option Nat
  | [] => none
  | '0' :: 'x' :: rest => number? 16 rest
  | '0' :: rest => number? 8 rest
  | cs => number? 10 cs

/-- Whether the host has to be read as numbers. -/
def endsInNumber (parts : List (List Char)) : Bool :=
  match parts.getLast? with
  | none => false
  | some p =>
    (!p.isEmpty && p.all Char.isDigit) || (p.take 2 = ['0', 'x'] && (hostNumber? p).isSome)

/-- A host of up to four numbers, written with four. -/
def fourNumbers? (parts : List (List Char)) : Option (List Char) := do
  let ns ← parts.mapM hostNumber?
  let last ← ns.getLast?
  let front := ns.dropLast
  if 3 < front.length ∨ front.any (255 < ·) ∨ Nat.pow 256 (4 - front.length) ≤ last then none
  let placed := (List.range front.length).zip front
  let n := placed.foldl (fun n (i, p) => n + p * Nat.pow 256 (3 - i)) last
  let byte (i : Nat) : String := toString (n / Nat.pow 256 (3 - i) % 256)
  return (".".intercalate [byte 0, byte 1, byte 2, byte 3]).toList

/-- One group of a host in brackets. -/
def group? (cs : List Char) : Option Nat :=
  if 1 ≤ cs.length ∧ cs.length ≤ 4 then number? 16 cs else none

/-- The groups of one side of a double colon. -/
def groups? (cs : List Char) : Option (List Nat) :=
  if cs.isEmpty then some [] else (pieces ':' cs).mapM group?

/-- The text split at the first double colon. -/
def splitDouble : List Char → List Char × Option (List Char)
  | ':' :: ':' :: rest => ([], some rest)
  | c :: rest =>
    let (front, back) := splitDouble rest
    (c :: front, back)
  | [] => ([], none)

/-- The eight groups of a host in brackets. -/
def eightGroups? (cs : List Char) : Option (List Nat) := do
  let (front, back) := splitDouble cs
  let front ← groups? front
  match back with
  | none => if front.length = 8 then return front else none
  | some back => do
    let back ← groups? back
    let n := front.length + back.length
    if 7 < n then none else return front ++ List.replicate (8 - n) 0 ++ back

/-- The length of the run of zeros at the head of groups. -/
def zeroRun (groups : List Nat) : Nat := (groups.takeWhile (· = 0)).length

/-- Where the first of the longest runs of zeros starts, and its length. -/
def longestRun (groups : List Nat) : Nat × Nat :=
  (List.range groups.length).foldl (fun (start, len) i =>
    let run := zeroRun (groups.drop i)
    if len < run then (i, run) else (start, len)) (0, 0)

/-- A group in small letters. -/
def groupText (n : Nat) : String := String.ofList (Nat.toDigits 16 n)

/-- Eight groups, the longest run of two or more zeros left out. -/
def groupsText (groups : List Nat) : List Char :=
  let (start, len) := longestRun groups
  let text (gs : List Nat) : String := ":".intercalate (gs.map groupText)
  (if len < 2 then text groups
    else text (groups.take start) ++ "::" ++ text (groups.drop (start + len))).toList

/-- A host as it is written. -/
def host? (cs : List Char) : Option (List Char) := do
  match cs with
  | '[' :: rest =>
    if rest.getLast? ≠ some ']' then none
    return ['['] ++ groupsText (← eightGroups? rest.dropLast) ++ [']']
  | _ =>
    let name := cs.map Char.toLower
    if name.isEmpty || name.any badInHost then none
    let parts := pieces '.' name
    let parts := if 1 < parts.length ∧ parts.getLast? = some [] then parts.dropLast else parts
    if endsInNumber parts then fourNumbers? parts else return name

/-! ## Paths -/

/-- The parts of a path, with steps to the same and to the upper place taken. -/
def walk (done : List (List Char)) : List (List Char) → List (List Char)
  | [] => done.reverse
  | p :: rest =>
    let small := p.map Char.toLower
    if small = ['.'] ∨ small = "%2e".toList then
      walk (if rest.isEmpty then [] :: done else done) rest
    else if ["..", ".%2e", "%2e.", "%2e%2e"].contains (String.ofList small) then
      walk (if rest.isEmpty then [] :: done.drop 1 else done.drop 1) rest
    else walk (encodeBy pathSet p :: done) rest

/-- A path as it is written, from its parts. -/
def joinPath (parts : List (List Char)) : List Char := parts.flatMap ('/' :: ·)

/-! ## Addresses -/

/-- An address of a host on the web. -/
structure Url where
  scheme : String
  host : String
  /-- The port, if it is not the usual one. -/
  port : Option Nat
  path : String
  /-- The query with its `?`, or nothing. -/
  query : String
  /-- The fragment with its `#`, or nothing. -/
  fragment : String
  deriving DecidableEq, Repr, Inhabited

namespace Url

/-- The host, and the port if it is not the usual one. -/
def authority (u : Url) : String :=
  match u.port with
  | none => u.host
  | some n => u.host ++ ":" ++ toString n

/-- The whole address. -/
def text (u : Url) : String := u.scheme ++ "://" ++ u.authority ++ u.path ++ u.query ++ u.fragment

/-- What the host is asked for. -/
def target (u : Url) : String := u.path ++ u.query

/-- What a text is as an address. -/
inductive Reading where
  /-- No address. -/
  | notAddress
  /-- An address, but not of a host on the web. -/
  | foreign (text : String)
  | address (u : Url)
  deriving DecidableEq, Repr

/-- A character of the name of a scheme. -/
def isSchemeChar (c : Char) : Bool := c.isAlphanum || c = '+' || c = '-' || c = '.'

/-- The scheme, and what follows its colon. -/
def splitScheme (cs : List Char) : Option (String × List Char) :=
  match cs.takeWhile isSchemeChar, cs.dropWhile isSchemeChar with
  | c :: name, ':' :: rest =>
    if c.isAlpha then some (String.ofList ((c :: name).map Char.toLower), rest) else none
  | _, _ => none

/-- The text without blanks at its ends and without tabs and line breaks. -/
def clean (cs : List Char) : List Char :=
  let isBlank (c : Char) : Bool := c.toNat ≤ 32
  let inner := ((cs.dropWhile isBlank).reverse.dropWhile isBlank).reverse
  inner.filter fun c => c ≠ '\t' && c ≠ '\n' && c ≠ '\r'

/-- The usual port of a scheme. -/
def usualPort : String → Nat
  | "https" => 443
  | _ => 80

/-- The number of a port, or none where it is left out. -/
def port? (cs : List Char) : Option (Option Nat) :=
  if cs.isEmpty then some none
  else if cs.all Char.isDigit ∧ Decimal.value cs ≤ 65535 then some (some (Decimal.value cs))
  else none

/-- Host and port of what stands before the path, without names of users. -/
def authority? (scheme : String) (cs : List Char) : Option (String × Option Nat) := do
  let cs := (pieces '@' cs).getLastD cs
  let tail := cs.reverse.takeWhile fun c => c ≠ ':' && c ≠ ']'
  let hasPort := (cs.reverse.drop tail.length).head? = some ':'
  let host ← host? (if hasPort then cs.take (cs.length - tail.length - 1) else cs)
  let port ← if hasPort then port? tail.reverse else some none
  return (String.ofList host, port.filter (· ≠ usualPort scheme))

/-- Whether a character separates the parts of a path. -/
def isSlash (c : Char) : Bool := c = '/' || c = '\\'

/-- An address of a host, after its scheme. -/
def ofRest? (scheme : String) (cs : List Char) : Option Url := do
  let cs := cs.dropWhile isSlash
  let isEnd (c : Char) : Bool := isSlash c || c = '?' || c = '#'
  let (host, port) ← authority? scheme (cs.takeWhile (!isEnd ·))
  let rest := cs.dropWhile (!isEnd ·)
  let path := rest.takeWhile fun c => c ≠ '?' && c ≠ '#'
  let rest := rest.drop path.length
  let query := rest.takeWhile (· ≠ '#')
  let fragment := rest.drop query.length
  let parts := pieces '/' ((path.drop 1).map fun c => if c = '\\' then '/' else c)
  let lead (mark : Char) (set : Char → Bool) : List Char → String
    | [] => ""
    | _ :: cs => String.ofList (mark :: encodeBy set cs)
  return {
    scheme := scheme
    host := host
    port := port
    path := String.ofList (joinPath (walk [] parts))
    query := lead '?' querySet query
    fragment := lead '#' fragmentSet fragment }

/-- Read an address. -/
def parse (s : String) : Reading :=
  let cs := clean s.toList
  match splitScheme cs with
  | none => .notAddress
  | some (scheme, rest) =>
    if scheme = "http" ∨ scheme = "https" then
      match ofRest? scheme rest with
      | none => .notAddress
      | some u => .address u
    else .foreign (scheme ++ ":" ++ String.ofList (encodeBy isOutside rest))

end Url

end LiveScene.Web
