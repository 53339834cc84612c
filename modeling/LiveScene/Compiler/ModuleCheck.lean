import LiveScene.Compiler.Inert
import LiveScene.Diagnostics.Diagnostic
import LiveScene.Sandbox.Ambient
import LiveScene.Text.CharClass
import LiveScene.Text.Search

/-!
# Imports and members of modules

A check of the source as text: which modules it imports by name, and which
members it uses through the aliases of the ambient module. What starts in a
comment or a string is not looked at.

`moduleFindings` reports imports of other modules, members that the ambient
module lacks, and calls with more arguments than a list may have.
-/

namespace LiveScene.Compiler

open Text Diagnostics Sandbox

/-- The first character of a name. -/
def startsName (c : Char) : Bool := c.isAlpha || c = '_'

/-- A later character of a name. -/
def continuesName (c : Char) : Bool := c.isAlphanum || c = '_'

/-- The name a text starts with. -/
def nameAtStart? : List Char → Option (List Char)
  | [] => none
  | c :: cs => if startsName c then some (c :: cs.takeWhile continuesName) else none

/-- The text behind a word it starts with. -/
def behind? (word : List Char) (cs : List Char) : Option (List Char) :=
  if word.isPrefixOf cs then some (cs.drop word.length) else none

/-- An import of a module by its name in double quotes. -/
structure ImportClause where
  name : List Char
  asName : Option (List Char)
  /-- The bytes between the start of the clause and the opening quote. -/
  lead : Nat
  deriving DecidableEq, Repr

/-- `as` and an alias, with white space before each, and their length. -/
def aliasClause? (cs : List Char) : Option (List Char × Nat) := do
  let gap := cs.takeWhile isSpace
  if gap = [] then none
  let rest ← behind? ['a', 's'] (cs.dropWhile isSpace)
  let gap' := rest.takeWhile isSpace
  if gap' = [] then none
  let name ← nameAtStart? (rest.dropWhile isSpace)
  return (name, gap.length + 2 + gap'.length + name.length)

/-- An import at the start of a text. -/
def importClause : Matcher ImportClause := fun before cs => do
  let rest ← behind? "import".toList cs
  if !startsWord before then none
  let gap := rest.takeWhile isSpace
  if gap = [] then none
  match rest.dropWhile isSpace with
  | '"' :: inner =>
    let name := inner.takeWhile (· ≠ '"')
    match inner.drop name.length with
    | _ :: tail =>
      let asName := aliasClause? tail
      return (⟨name, asName.map (·.1), 6 + byteLength gap⟩,
        6 + gap.length + name.length + 2 + (asName.map (·.2)).getD 0)
    | [] => none
  | _ => none

/-- The use of a member of a module through an alias. -/
structure MemberUse where
  asName : List Char
  member : List Char
  deriving DecidableEq, Repr

namespace MemberUse

/-- The bytes between the start of the use and the member's name. -/
def lead (u : MemberUse) : Nat := u.asName.length + 2

/-- The bytes of the use. -/
def length (u : MemberUse) : Nat := u.asName.length + 2 + u.member.length

end MemberUse

/-- The use of a member at the start of a text. Names are ASCII, so their
characters are their bytes. -/
def memberUse : Matcher MemberUse := fun before cs => do
  let asName ← nameAtStart? cs
  if !startsWord before then none
  let rest ← behind? [':', ':'] (cs.drop asName.length)
  let member ← nameAtStart? rest
  let u : MemberUse := ⟨asName, member⟩
  return (u, u.length)

/-- Whether a byte lies in none of the ranges. -/
def isCode (inert : List ByteRange) (i : Nat) : Bool := !inert.any (·.holds i)

/-- The imports that start in code and where they start. -/
def imports (inert : List ByteRange) (source : List Char) : List (Nat × ImportClause) :=
  (searchAll importClause source).filter fun (start, _) => isCode inert start

/-- The aliases under which the source imports a module. -/
def aliasesOf (moduleName : String) (clauses : List (Nat × ImportClause)) : List (List Char) :=
  clauses.filterMap fun (_, c) => if c.name = moduleName.toList then c.asName else none

/-- The finding about an import that starts at a byte, unless it is the
ambient module that is imported. The range is the name in its quotes. -/
def importFinding? (ambient : Ambient) (start : Nat) (c : ImportClause) : Option Diagnostic :=
  if c.name = ambient.moduleName.toList then none
  else
    let offset := start + c.lead
    let length := byteLength c.name + 2
    some (.nested offset length (.text offset length
      ("Cannot find module '" ++ String.ofList c.name ++ "'. Only the '" ++
        ambient.moduleName ++ "' module can be imported.")))

/-- The finding about the use of a member that starts at a byte. -/
def memberFinding? (ambient : Ambient) (source : List UInt8) (inert : List ByteRange)
    (start : Nat) (u : MemberUse) : Option Diagnostic :=
  let name := String.ofList u.member
  let finding := Diagnostic.text (start + u.lead) u.member.length
  if !ambient.declares name then
    some (finding ("Module '" ++ ambient.moduleName ++
      "' has no exported member '" ++ name ++ "'."))
  else
    match ambient.maxArguments? name with
    | none => none
    | some limit =>
      match argumentCount source (start + u.length) inert with
      | some n =>
        if limit < n then
          some (finding ("'" ++ name ++ "' takes at most " ++ toString limit ++
            " arguments; pass an array for more."))
        else none
      | none => none

/-- The findings of the check: those about imports first, then those about members. -/
def moduleFindings (ambient : Ambient) (source : List Char) : List Diagnostic :=
  let bs := bytes source
  let inert := inertRanges bs
  let clauses := imports inert source
  let aliases := aliasesOf ambient.moduleName clauses
  let uses := (searchAll memberUse source).filter fun (start, u) =>
    isCode inert start && aliases.contains u.asName
  clauses.filterMap (fun (start, c) => importFinding? ambient start c) ++
    uses.filterMap fun (start, u) => memberFinding? ambient bs inert start u

end LiveScene.Compiler
