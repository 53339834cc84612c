import LiveScene.Text.Lines

/-!
# Searching a text from left to right

`searchAll` tries a matcher at every character. A matcher sees the character
before the text, if there is one, and answers with what it found and how
many characters that takes. Matches do not overlap: the search goes on
behind each of them.
-/

namespace LiveScene.Text

/-- A match at the start of a text and the number of its characters. -/
abbrev Matcher (α : Type) := Option Char → List Char → Option (α × Nat)

/-- All matches and the bytes they start at, for a text that starts at byte
`start` and whose first `skip` characters belong to the match found last. -/
def searchFrom {α : Type} (m : Matcher α) (before : Option Char) (start skip : Nat) :
    List Char → List (Nat × α)
  | [] => []
  | c :: cs =>
    match skip with
    | skip + 1 => searchFrom m (some c) (start + c.utf8Size) skip cs
    | 0 =>
      match m before (c :: cs) with
      | some (a, n) => (start, a) :: searchFrom m (some c) (start + c.utf8Size) (n - 1) cs
      | none => searchFrom m (some c) (start + c.utf8Size) 0 cs

/-- All matches of a text and the bytes they start at. -/
def searchAll {α : Type} (m : Matcher α) (cs : List Char) : List (Nat × α) :=
  searchFrom m none 0 0 cs

end LiveScene.Text
