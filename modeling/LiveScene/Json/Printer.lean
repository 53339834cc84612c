import LiveScene.Json
import LiveScene.Decimal.Layout

/-!
# Values to JSON text

One line, the names of an object in byte order, characters outside of ASCII
as `\u` escapes. A float always shows that it is one; floats that JSON has
no number for are written as `null`. `pretty` spreads a value over lines and
keeps the order of its fields.
-/

namespace LiveScene.Json

/-- Positional from `1e-5` up to below `1e16`, a signed exponent of two
digits or more outside of that. -/
def floatLayout : Decimal.Layout where
  positional _ d := decide (-5 ≤ d.power) && decide (d.power < 16)
  plusSign := true
  exponentWidth := 2
  zero negative := if negative then "-0.0" else "0.0"
  nan := "null"
  infinity _ := "null"

/-- The escape of one UTF-16 unit. -/
def unitEscape (n : Nat) : List Char :=
  let digits := Nat.toDigits 16 n
  '\\' :: 'u' :: (List.replicate (4 - digits.length) '0' ++ digits)

/-- A character as it stands inside of a string. -/
def escapeChar (c : Char) : List Char :=
  if c = '"' then ['\\', '"']
  else if c = '\\' then ['\\', '\\']
  else if c = '\n' then ['\\', 'n']
  else if c.toNat < 0x20 ∨ 0x7f ≤ c.toNat then
    if c.toNat < 0x10000 then unitEscape c.toNat
    else
      let n := c.toNat - 0x10000
      unitEscape (0xD800 + n / 0x400) ++ unitEscape (0xDC00 + n % 0x400)
  else [c]

/-- A string with its quotes. -/
def quote (s : String) : String :=
  String.ofList ('"' :: s.toList.flatMap escapeChar ++ ['"'])

/-- The names of an object in byte order, which is the order of their characters. -/
def sortFields (fields : List (String × α)) : List (String × α) :=
  fields.mergeSort (fun a b => decide (a.1 ≤ b.1))

mutual

/-- The text of a value. -/
def print : Json → String
  | .null => "null"
  | .bool b => if b then "true" else "false"
  | .int n => toString n
  | .float x => floatLayout.write x
  | .str s => quote s
  | .arr items => "[" ++ String.intercalate "," (printItems items) ++ "]"
  | .obj fields =>
    "\x7b" ++ String.intercalate "," ((sortFields (printFields fields)).map (·.2)) ++ "\x7d"

/-- The texts of the items. -/
def printItems : List Json → List String
  | [] => []
  | v :: rest => print v :: printItems rest

/-- The fields with their whole text beside the name. -/
def printFields : List (String × Json) → List (String × String)
  | [] => []
  | (k, v) :: rest => (k, quote k ++ ":" ++ print v) :: printFields rest

end

/-- A bracketed list, an item to a line. -/
def spread (indent opening closing : String) : List String → String
  | [] => opening ++ closing
  | items =>
    opening ++ "\n" ++ String.intercalate ",\n" (items.map (indent ++ "  " ++ ·)) ++ "\n" ++
      indent ++ closing

mutual

/-- The text of a value over many lines, after the first one indented. -/
def pretty (indent : String) : Json → String
  | .arr items => spread indent "[" "]" (prettyItems (indent ++ "  ") items)
  | .obj fields => spread indent "\x7b" "\x7d" (prettyFields (indent ++ "  ") fields)
  | v => v.print

/-- The texts of the items. -/
def prettyItems (indent : String) : List Json → List String
  | [] => []
  | v :: rest => pretty indent v :: prettyItems indent rest

/-- The texts of the fields. -/
def prettyFields (indent : String) : List (String × Json) → List String
  | [] => []
  | (k, v) :: rest => (quote k ++ ": " ++ pretty indent v) :: prettyFields indent rest

end

end LiveScene.Json
