import LiveScene.Text.Lines

/-!
# Comments and string literals

`inertRanges` finds the stretches of a source, in bytes, that are comments
or string literals. `//` runs up to the end of the line, block comments
nest, a string runs up to the quote that opened it and a backslash in it
takes the next byte along. What is not closed runs to the end.

`argumentCount` counts the arguments of a call. It takes each inert stretch
as one thing that stands there, whatever it holds.
-/

namespace LiveScene.Compiler

/-- The bytes from `start` up to but not including `stop`. -/
structure ByteRange where
  start : Nat
  stop : Nat
  deriving DecidableEq, Repr, Inhabited

namespace ByteRange

/-- Whether a byte lies in the range. -/
def holds (r : ByteRange) (i : Nat) : Bool := r.start ≤ i && i < r.stop

/-- The number of bytes. -/
def length (r : ByteRange) : Nat := r.stop - r.start

end ByteRange

/-- The code of an ASCII character. -/
def byte (c : Char) : UInt8 := c.toNat.toUInt8

/-- The bytes of a comment up to the end of its line. -/
def lineCommentLength (bs : List UInt8) : Nat := (bs.takeWhile (· ≠ byte '\n')).length

/-- The bytes of a block comment, inside of `depth` open ones. -/
def blockCommentLength (depth : Nat) : List UInt8 → Nat
  | [] => 0
  | [_] => 1
  | a :: b :: rest =>
    if a = byte '/' ∧ b = byte '*' then 2 + blockCommentLength (depth + 1) rest
    else if a = byte '*' ∧ b = byte '/' then
      if depth ≤ 1 then 2 else 2 + blockCommentLength (depth - 1) rest
    else 1 + blockCommentLength depth (b :: rest)

/-- The bytes of a string behind its opening quote, the closing one included. -/
def quotedLength (quote : UInt8) : List UInt8 → Nat
  | [] => 0
  | [_] => 1
  | a :: b :: rest =>
    if a = quote then 1
    else if a = byte '\\' then 2 + quotedLength quote rest
    else 1 + quotedLength quote (b :: rest)

/-- Whether a byte opens a string. -/
def isQuote (b : UInt8) : Bool := b = byte '"' || b = byte '\x60' || b = byte '\x27'

/-- The bytes of the comment or string that a text starts with. -/
def inertLength? : List UInt8 → Option Nat
  | [] => none
  | a :: rest =>
    if isQuote a then some (1 + quotedLength a rest)
    else if a = byte '/' ∧ rest.head? = some (byte '/') then some (lineCommentLength (a :: rest))
    else if a = byte '/' ∧ rest.head? = some (byte '*') then
      some (blockCommentLength 0 (a :: rest))
    else none

/-- The inert stretches of a text that starts at byte `start` and whose first
`skip` bytes belong to the stretch found last. -/
def inertFrom (start skip : Nat) : List UInt8 → List ByteRange
  | [] => []
  | b :: bs =>
    match skip with
    | skip + 1 => inertFrom (start + 1) skip bs
    | 0 =>
      match inertLength? (b :: bs) with
      | some n => ⟨start, start + n⟩ :: inertFrom (start + 1) (n - 1) bs
      | none => inertFrom (start + 1) 0 bs

/-- The comments and string literals of a source. -/
def inertRanges (source : List UInt8) : List ByteRange := inertFrom 0 0 source

/-- White space between tokens, as far as ASCII goes. -/
def isBlank (b : UInt8) : Bool :=
  b = byte ' ' || b = byte '\t' || b = byte '\n' || b = byte '\x0c' || b = byte '\r'

/-- How far the count of a call's arguments has come. -/
structure ArgumentScan where
  /-- Brackets that are open. -/
  depth : Nat
  /-- Arguments that are over. -/
  count : Nat
  /-- Whether something of the argument at hand has been seen. -/
  pending : Bool
  deriving DecidableEq, Repr

namespace ArgumentScan

/-- Behind the opening parenthesis. -/
def initial : ArgumentScan := ⟨0, 0, false⟩

/-- The arguments seen, the one at hand among them. -/
def total (s : ArgumentScan) : Nat := s.count + (if s.pending then 1 else 0)

/-- Go on behind a byte of code that does not end the call. -/
def step (s : ArgumentScan) (b : UInt8) : ArgumentScan :=
  if b = byte ',' ∧ s.depth = 0 then ⟨0, s.total, false⟩
  else if b = byte '(' ∨ b = byte '[' ∨ b = byte '\x7b' then ⟨s.depth + 1, s.count, true⟩
  else if b = byte ')' ∨ b = byte ']' ∨ b = byte '\x7d' then { s with depth := s.depth - 1 }
  else if isBlank b then s
  else { s with pending := true }

end ArgumentScan

/-- The arguments of a call up to its closing parenthesis, for a text that
starts at byte `start` and whose first `skip` bytes are inert. -/
def countArguments (inert : List ByteRange) (s : ArgumentScan) (start skip : Nat) :
    List UInt8 → Option Nat
  | [] => none
  | b :: bs =>
    match skip with
    | skip + 1 => countArguments inert s (start + 1) skip bs
    | 0 =>
      match inert.find? (·.start = start) with
      | some r =>
        countArguments inert { s with pending := true } (start + 1) (r.length - 1) bs
      | none =>
        if b = byte ')' ∧ s.depth = 0 then some s.total
        else countArguments inert (s.step b) (start + 1) 0 bs

/-- The number of arguments of the call whose callee ends at byte `after`;
`none` where no list of arguments follows. -/
def argumentCount (source : List UInt8) (after : Nat) (inert : List ByteRange) : Option Nat :=
  let behind := source.drop after
  let blank := behind.takeWhile isBlank
  match behind.dropWhile isBlank with
  | b :: bs =>
    if b = byte '(' then countArguments inert .initial (after + blank.length + 1) 0 bs else none
  | [] => none

end LiveScene.Compiler
