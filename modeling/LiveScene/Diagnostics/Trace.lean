import LiveScene.Diagnostics.Record
import LiveScene.Text.CharClass
import LiveScene.Text.Search

/-!
# Reading stack traces

A frame is the word `at`, white space and a place `file:line:col`, which may
be written as `name (file:line:col)`. `Frame.match?` reads one at the start
of a text, `frames` finds all of them from left to right without overlap.

White space, the parenthesis and the digits leave a frame only one way to be
read, apart from the file: it is the shortest one that a line and a column
follow. So no search with a way back is needed.

`classifyTrace` takes the place of the last frame and the message of the
first line that holds none.
-/

namespace LiveScene.Diagnostics

open Text

/-- A character of a file or a function name. -/
def isNameChar (c : Char) : Bool := !isSpace c && c ≠ '(' && c ≠ ')'

/-- The digits of a place and the characters of the frame up to its end. -/
structure Frame where
  line : List Char
  col : List Char
  length : Nat
  deriving Repr, DecidableEq

namespace Frame

/-- The shortest file with a line and a column behind it; `seen` characters
of the frame come before the text. -/
def place? (seen : Nat) (first : Bool) : List Char → Option Frame
  | [] => none
  | c :: cs =>
    let line := cs.takeWhile isDigit
    let after := cs.dropWhile isDigit
    let col := after.tail.takeWhile isDigit
    if !first && c = ':' && line ≠ [] && after.head? = some ':' && col ≠ [] then
      let closing := if (after.tail.dropWhile isDigit).head? = some ')' then 1 else 0
      some ⟨line, col, seen + 1 + line.length + 1 + col.length + closing⟩
    else if isNameChar c then place? (seen + 1) false cs
    else none

/-- The place of a frame behind its `at`, inside of parentheses if there is
a name in front of them, else bare. -/
def afterWord? (seen : Nat) (cs : List Char) : Option Frame :=
  let name := cs.takeWhile isNameChar
  let rest := cs.dropWhile isNameChar
  let gap := rest.takeWhile isSpace
  let named :=
    match rest.dropWhile isSpace with
    | '(' :: inner =>
      if name ≠ [] ∧ gap ≠ [] then place? (seen + name.length + gap.length + 1) true inner else none
    | _ => none
  named.or (place? seen true cs)

/-- The frame at the start of a text that follows the character `before`. -/
def match? (before : Option Char) : List Char → Option Frame
  | 'a' :: 't' :: cs =>
    let gap := cs.takeWhile isSpace
    if startsWord before ∧ gap ≠ [] then afterWord? (2 + gap.length) (cs.dropWhile isSpace)
    else none
  | _ => none

end Frame

/-- A frame as a match of a text. -/
def Frame.matcher : Matcher Frame := fun before cs =>
  (Frame.match? before cs).map fun f => (f, f.length)

/-- The frames of a text from left to right. -/
def frames (cs : List Char) : List Frame := (searchAll Frame.matcher cs).map (·.2)

/-- The number that digits write, if all of them are ASCII and it is a size. -/
def size? (digits : List Char) : Option Nat :=
  if digits.all Char.isDigit then
    let n := digits.foldl (fun n c => n * 10 + (c.toNat - '0'.toNat)) 0
    if n ≤ Json.maxSize then some n else none
  else none

/-- The lines of a text, which end with `\n` or `\r\n`; an empty last line is none. -/
def textLines : List Char → List (List Char)
  | [] => []
  | '\n' :: cs => [] :: textLines cs
  | '\r' :: '\n' :: cs => [] :: textLines cs
  | c :: cs =>
    match textLines cs with
    | [] => [[c]]
    | line :: rest => (c :: line) :: rest

/-- What a stack trace says about the place of a failure. -/
inductive TraceClass where
  /-- The failure has a place in the source. -/
  | classified (record : ErrorRecord)
  /-- No frame carries a place. -/
  | unclassified
  deriving DecidableEq, Repr

/-- The first line of a trace that is neither blank nor holds a frame. -/
def traceMessage (cs : List Char) : List Char :=
  (((textLines cs).map trim).find? fun l => l ≠ [] && frames l = []).getD []

/-- Decode a stack trace. -/
def classifyTrace (trace : String) : TraceClass :=
  let cs := trace.toList
  match (frames cs).getLast? with
  | none => .unclassified
  | some f =>
    match size? f.line, size? f.col with
    | some line, some col => .classified ⟨String.ofList (traceMessage cs), line, col⟩
    | _, _ => .unclassified

end LiveScene.Diagnostics
