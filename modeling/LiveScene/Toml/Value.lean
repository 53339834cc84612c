import LiveScene.Json

/-!
# Values of a TOML document

A table remembers how it came about, for that decides what may still be added
to it: nothing to a table in braces, everything once to a table that was only
named on the way to another one, and more keys of the same dotted form to one
that a dotted key made. `Table.define`, `Table.openTable` and `Table.openItem`
add a key, a heading and an item of a list of tables; each is `none` where a
name is already taken.
-/

namespace LiveScene.Toml

/-- How a table came about. -/
inductive Origin where
  /-- Written in braces. -/
  | braces
  /-- With a heading of its own. -/
  | heading
  /-- Named on the way to another heading. -/
  | passed
  /-- Made by a dotted key. -/
  | dotted
  deriving DecidableEq, Repr, Inhabited

/-- A value. -/
inductive Value where
  | str (s : String)
  | int (n : Int)
  | float (x : Float)
  | bool (b : Bool)
  /-- A date, a time of day, or both, as it is written. -/
  | moment (text : String)
  | array (items : List Value)
  | table (origin : Origin) (entries : List (String × Value))
  /-- Tables with headings in double brackets. -/
  | tables (items : List Value)
  deriving Repr, Inhabited

/-- A table by itself. -/
structure Table where
  origin : Origin
  entries : List (String × Value)
  deriving Repr, Inhabited

namespace Table

/-- The table as a value. -/
def toValue (t : Table) : Value := .table t.origin t.entries

/-- Entries with a new value for a name, in its old place if there is one. -/
def putEntry (name : String) (v : Value) : List (String × Value) → List (String × Value)
  | [] => [(name, v)]
  | (k, w) :: rest => if k = name then (k, v) :: rest else (k, w) :: putEntry name v rest

/-- The table with a new value for a name. -/
def put (t : Table) (name : String) (v : Value) : Table :=
  { t with entries := putEntry name v t.entries }

/-- Change the table that a path leads to. Tables that are not there are made
on the way. Of a list of tables the last one is meant. A dotted path does not
enter tables with headings of their own. -/
def update (made : Origin) (change : Table → Option Table) :
    List String → Table → Option Table
  | [], t => change t
  | k :: rest, t =>
    match t.entries.lookup k with
    | none => do return t.put k (← update made change rest ⟨made, []⟩).toValue
    | some (.table o entries) =>
      if o = .braces ∨ (made = .dotted ∧ o = .heading) then none
      else do return t.put k (← update made change rest ⟨o, entries⟩).toValue
    | some (.tables items) =>
      match items.getLast? with
      | some (.table o entries) => do
        let last ← update made change rest ⟨o, entries⟩
        return t.put k (.tables (items.dropLast ++ [last.toValue]))
      | _ => none
    | some _ => none

/-- Add a value under a dotted key. -/
def define (t : Table) (keys : List String) (v : Value) : Option Table := do
  let name ← keys.getLast?
  let path := keys.dropLast
  t.update .dotted (fun t =>
    if (t.origin = .dotted) = path.isEmpty ∨ (t.entries.lookup name).isSome then none
    else some (t.put name v)) path

/-- Add a heading. -/
def openTable (t : Table) (keys : List String) : Option Table := do
  let name ← keys.getLast?
  t.update .passed (fun t =>
    match t.entries.lookup name with
    | none => some (t.put name (.table .heading []))
    | some (.table .passed entries) => some (t.put name (.table .heading entries))
    | some _ => none) keys.dropLast

/-- Add an item to a list of tables. -/
def openItem (t : Table) (keys : List String) : Option Table := do
  let name ← keys.getLast?
  t.update .passed (fun t =>
    match t.entries.lookup name with
    | none => some (t.put name (.tables [.table .heading []]))
    | some (.tables items) => some (t.put name (.tables (items ++ [.table .heading []])))
    | some _ => none) keys.dropLast

/-- A table in braces. -/
def ofPairs (pairs : List (List String × Value)) : Option Table :=
  pairs.foldlM (fun t (keys, v) => t.define keys v) ⟨.braces, []⟩

end Table

mutual

/-- The value in JSON's terms. A date or time is an object of its own kind. -/
def Value.toJson : Value → Json
  | .str s => .str s
  | .int n => .int n
  | .float x => .float x
  | .bool b => .bool b
  | .moment text => .obj [("moment", .str text)]
  | .array items => .arr (itemsToJson items)
  | .table _ entries => .obj (entriesToJson entries)
  | .tables items => .arr (itemsToJson items)

/-- The items of a list in JSON's terms. -/
def itemsToJson : List Value → List Json
  | [] => []
  | v :: rest => v.toJson :: itemsToJson rest

/-- The entries of a table in JSON's terms. -/
def entriesToJson : List (String × Value) → List (String × Json)
  | [] => []
  | (k, v) :: rest => (k, v.toJson) :: entriesToJson rest

end

end LiveScene.Toml
