import LiveScene.Text.Classes

/-!
# Character classes

White space is the White_Space property. Word characters and decimal digits
are ASCII's own, decided without a table, and those of the range tables.
-/

namespace LiveScene.Text

/-- Whether one of the ranges holds a code point. -/
def inRanges (n : Nat) (ranges : List (Nat × Nat)) : Bool :=
  ranges.any fun (lo, hi) => lo ≤ n && n ≤ hi

/-- White space, as Unicode's property of that name has it. -/
def isSpace (c : Char) : Bool :=
  let n := c.toNat
  (9 ≤ n && n ≤ 13) || n = 32 || n = 0x85 || n = 0xA0 || n = 0x1680 ||
    (0x2000 ≤ n && n ≤ 0x200A) || n = 0x2028 || n = 0x2029 || n = 0x202F ||
    n = 0x205F || n = 0x3000

/-- A decimal digit of any script. -/
def isDigit (c : Char) : Bool :=
  if c.toNat < 0x80 then c.isDigit else inRanges c.toNat digitRanges

/-- A character that belongs to a word, of any script. -/
def isWord (c : Char) : Bool :=
  if c.toNat < 0x80 then c.isAlphanum || c = '_' else inRanges c.toNat wordRanges

/-- Whether a word boundary stands before a word character that follows `before`. -/
def startsWord (before : Option Char) : Bool :=
  match before with
  | none => true
  | some c => !isWord c

/-- The text without white space at its ends. -/
def trim (cs : List Char) : List Char :=
  ((cs.dropWhile isSpace).reverse.dropWhile isSpace).reverse

end LiveScene.Text
