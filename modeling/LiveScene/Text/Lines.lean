/-!
# Lines of a text

`LineIndex` cuts a text into lines and knows the byte at which each of them
starts. Lines end with `\n`; a `\r` before it stays part of the line.

`position` turns a byte offset into a line and a column counted in bytes.
`offsetOf` goes the other way with columns counted in characters. Both count
from 1 and clamp what lies outside of the text.
-/

namespace LiveScene.Text

/-- The bytes a text takes in UTF-8. -/
def byteLength : List Char → Nat
  | [] => 0
  | c :: cs => c.utf8Size + byteLength cs

/-- The bytes of a text in UTF-8. -/
def bytes (cs : List Char) : List UInt8 := cs.flatMap String.utf8EncodeChar

/-- The stretches between line ends; always at least one. -/
def splitLines : List Char → List (List Char)
  | [] => [[]]
  | c :: cs =>
    if c = '\n' then [] :: splitLines cs
    else match splitLines cs with
      | [] => [[c]]
      | line :: rest => (c :: line) :: rest

/-- One line of a text: the byte it starts at and its characters. -/
structure Line where
  start : Nat
  chars : List Char
  deriving Repr, DecidableEq

/-- Lines that follow one another from a first start, a line end between two. -/
def placeLines (start : Nat) : List (List Char) → List Line
  | [] => []
  | line :: rest => ⟨start, line⟩ :: placeLines (start + byteLength line + 1) rest

/-- The lines of one text and the bytes it takes. -/
structure LineIndex where
  lines : List Line
  size : Nat
  deriving Repr, DecidableEq

namespace LineIndex

/-- The index of a text. -/
def ofChars (cs : List Char) : LineIndex :=
  ⟨placeLines 0 (splitLines cs), byteLength cs⟩

/-- The index of a text. -/
def ofString (text : String) : LineIndex := ofChars text.toList

/-- The number of lines; an empty text has one. -/
def lineCount (index : LineIndex) : Nat := index.lines.length

/-- The line with a number from 1 on, the nearest one if there is none. -/
def lineAt (index : LineIndex) (line : Nat) : Line :=
  index.lines.getD (min line index.lines.length - 1) ⟨0, []⟩

/-- Line and byte column of a byte offset. -/
def position (index : LineIndex) (offset : Nat) : Nat × Nat :=
  let offset := min offset index.size
  let line := (index.lines.takeWhile (·.start ≤ offset)).length
  (line, offset - (index.lineAt line).start + 1)

/-- Byte offset of a line and a column counted in characters. -/
def offsetOf (index : LineIndex) (line col : Nat) : Nat :=
  let l := index.lineAt line
  l.start + byteLength (l.chars.take (col - 1))

end LineIndex

end LiveScene.Text
