import LiveScene.Toml.Lexeme

/-!
# TOML documents

A document is lines with a key and its value, or with a heading that says
where the keys below it go. Arrays may run over many lines, tables in braces
may not. `parse?` answers with the whole document as one value.
-/

namespace LiveScene.Toml

/-- The rest after blanks, line breaks and comments, as far as the fuel reaches. -/
def skipGap : Nat → List Char → List Char
  | 0, cs => cs
  | fuel + 1, cs =>
    match skipComment (skipBlanks cs) with
    | [] => []
    | rest =>
      match newline? rest with
      | some rest => skipGap fuel rest
      | none => rest

/-- The items of an array and the closing bracket. -/
def readItems (item : List Char → Option (Value × List Char)) :
    Nat → List Char → Option (List Value × List Char)
  | 0, _ => none
  | fuel + 1, cs =>
    match skipGap cs.length cs with
    | ']' :: rest => some ([], rest)
    | cs => do
      let (v, rest) ← item cs
      match skipGap rest.length rest with
      | ']' :: rest => return ([v], rest)
      | ',' :: rest => do
        let (vs, rest) ← readItems item fuel rest
        return (v :: vs, rest)
      | _ => none

/-- A key, the sign between, and a value. -/
def readPair (item : List Char → Option (Value × List Char)) (cs : List Char) :
    Option ((List String × Value) × List Char) := do
  let (keys, rest) ← readKeys cs
  let (v, rest) ← item (skipBlanks (← expect '=' rest))
  return ((keys, v), rest)

/-- The pairs of a table in braces and the closing brace. -/
def readPairs (item : List Char → Option (Value × List Char)) :
    Nat → List Char → Option (List (List String × Value) × List Char)
  | 0, _ => none
  | fuel + 1, cs => do
    let (p, rest) ← readPair item cs
    match skipBlanks rest with
    | '}' :: rest => return ([p], rest)
    | ',' :: rest => do
      let (ps, rest) ← readPairs item fuel rest
      return (p :: ps, rest)
    | _ => none

/-- A value, nested no deeper than said. -/
def readValue : (depth : Nat) → List Char → Option (Value × List Char)
  | depth + 1, '[' :: rest => do
    let (items, rest) ← readItems (readValue depth) (rest.length + 1) rest
    return (.array items, rest)
  | depth + 1, '{' :: rest =>
    match skipBlanks rest with
    | '}' :: rest => some (.table .braces [], rest)
    | rest => do
      let (pairs, rest) ← readPairs (readValue depth) (rest.length + 1) rest
      return ((← Table.ofPairs pairs).toValue, rest)
  | _, cs => readScalar cs

/-- A document as far as it is read: its tables and the heading above. -/
structure Draft where
  root : Table
  heading : List String
  deriving Repr, Inhabited

namespace Draft

/-- Nothing read. -/
def empty : Draft := ⟨⟨.heading, []⟩, []⟩

/-- Add a key and its value below the heading. -/
def define (d : Draft) (keys : List String) (v : Value) : Option Draft := do
  return { d with root := ← d.root.update .passed (·.define keys v) d.heading }

end Draft

/-- A heading in double or single brackets. -/
def readHeading (d : Draft) : List Char → Option (Draft × List Char)
  | '[' :: '[' :: rest => do
    let (keys, rest) ← readKeys rest
    let rest ← expect ']' (← expect ']' rest)
    return (⟨← d.root.openItem keys, keys⟩, rest)
  | '[' :: rest => do
    let (keys, rest) ← readKeys rest
    return (⟨← d.root.openTable keys, keys⟩, ← expect ']' rest)
  | _ => none

/-- The lines of a document, as far as the fuel reaches. -/
def readLines : Nat → Draft → List Char → Option Draft
  | 0, _, _ => none
  | fuel + 1, d, cs =>
    match skipBlanks cs with
    | [] => some d
    | '[' :: rest => do
      let (d, rest) ← readHeading d ('[' :: rest)
      readLines fuel d (← lineEnd? rest)
    | c :: rest =>
      match lineEnd? (c :: rest) with
      | some rest => readLines fuel d rest
      | none => do
        let ((keys, v), rest) ← readPair (readValue maxDepth) (c :: rest)
        readLines fuel (← d.define keys v) (← lineEnd? rest)

/-- The text without a mark of its byte order. -/
def skipMark : List Char → List Char
  | '\ufeff' :: rest => rest
  | cs => cs

/-- The value of a document. -/
def parse? (text : String) : Option Value := do
  let cs := skipMark text.toList
  return (← readLines (cs.length + 1) .empty cs).root.toValue

end LiveScene.Toml
