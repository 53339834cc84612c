import LiveScene.Script.Arithmetic

/-!
# The state of a run

A `Machine` holds the operations counted so far, the variables in scope, the
aliases of imported modules, the cells that closures share with their
surroundings, and what has been printed. A `World` holds what does not
change while a script runs.

`track` counts an operation. It stops the run at the limit, when the run has
been cancelled, and when patience is at an end, which means that the script
does not end by itself.
-/

namespace LiveScene.Script

/-- Limits of a run; a size of 0 is no limit, and neither are 0 operations. -/
structure RunLimits where
  maxOperations : Nat
  maxCallLevels : Nat
  maxString : Nat
  maxArray : Nat
  maxMap : Nat
  /-- The operations after which a script is taken not to end. -/
  patience : Nat
  deriving Repr

/-- A module: what a function gives for its arguments, and nothing where it
has no such function for so many. The error is the module's own text. -/
abbrev ModuleFunctions := String → List Value → Option (Except String Value)

/-- What does not change while a script runs. -/
structure World where
  limits : RunLimits
  /-- The modules there are, by their names. -/
  modules : List (String × ModuleFunctions)
  functions : List FnDef
  cancelled : Bool

/-- A bound for the rounds of a loop, which the count of operations reaches before. -/
def World.rounds (w : World) : Nat := w.limits.patience + 1

/-- Where a variable keeps its value. -/
inductive Slot where
  /-- A value of its own. -/
  | own (v : Value)
  /-- The number of a cell. -/
  | shared (cell : Nat)
  deriving Inhabited

/-- A variable in scope. -/
structure Binding where
  name : String
  constant : Bool
  slot : Slot
  deriving Inhabited

/-- The state of a run. -/
structure Machine where
  operations : Nat
  /-- The calls that are open. -/
  level : Nat
  /-- Newest first. -/
  scope : List Binding
  /-- Aliases and the modules they stand for, newest first. -/
  aliases : List (String × String)
  cells : Array Value
  this : Option Value
  /-- Newest first. -/
  printed : List String

namespace Machine

/-- Before a run. -/
def initial : Machine := ⟨0, 0, [], [], #[], none, []⟩

/-- Out of a block again: what it bound is gone. -/
def leaveTo (outer : Machine) (s : Machine) : Machine :=
  { s with
    scope := s.scope.drop (s.scope.length - outer.scope.length)
    aliases := outer.aliases }

/-- Out of a function again. -/
def returnTo (outer : Machine) (s : Machine) : Machine :=
  { s with
    scope := outer.scope
    aliases := outer.aliases
    level := outer.level
    this := outer.this }

end Machine

/-- What ends a statement early. -/
inductive Stop where
  | failed (fault : RunFault)
  /-- Out of a loop, which has the value. -/
  | left (v : Value)
  /-- On to the next round of a loop. -/
  | continued
  /-- Out of a function, or the script, with the value. -/
  | gave (v : Value)
  /-- The script does not end. -/
  | endless
  deriving Inhabited

/-- A step of a run. What it changed stays changed when it ends early. -/
abbrev Eval := EStateM Stop Machine

namespace Eval

/-- Fail for a cause at a place. -/
def fail {α : Type} (cause : Cause) (place : Place) : Eval α :=
  throw (.failed (.raised cause place))

/-- The result of an operation, a failure of which is shown at a place. -/
def at_ {α : Type} (place : Place) : Computed α → Eval α
  | .ok a => pure a
  | .error c => fail c place

/-- Count an operation at a place. -/
def track (w : World) (place : Place) : Eval Unit := do
  let n := (← get).operations + 1
  modify fun s => { s with operations := n }
  if w.limits.maxOperations ≠ 0 && w.limits.maxOperations < n then fail .tooManyOperations place
  if w.cancelled then fail .terminated place
  if w.limits.patience < n then throw .endless

/-- Run a step inside of a block. -/
def inBlock {α : Type} (step : Eval α) : Eval α := fun s =>
  match step s with
  | .ok a s' => .ok a (Machine.leaveTo s s')
  | .error e s' => .error e (Machine.leaveTo s s')

/-- Run a step inside of a function with the given variables, one call
deeper. Answers with the receiver as the function left it, too. -/
def inFunction (scope : List Binding) (this : Option Value) (step : Eval Value) :
    Eval (Value × Option Value) := fun s =>
  match step { s with scope := scope, this := this, level := s.level + 1 } with
  | .ok v s' => .ok (v, s'.this) (Machine.returnTo s s')
  | .error (.gave v) s' => .ok (v, s'.this) (Machine.returnTo s s')
  | .error e s' => .error e (Machine.returnTo s s')

/-- The result of a step, or what it failed with. -/
def attempt (step : Eval Value) : Eval (Except RunFault Value) := fun s =>
  match step s with
  | .ok v s' => .ok (.ok v) s'
  | .error (.failed f) s' => .ok (.error f) s'
  | .error e s' => .error e s'

/-- One round of a loop: the value of the loop if the round leaves it. -/
def oneRound (body : Eval Value) : Eval (Option Value) := fun s =>
  match body s with
  | .ok _ s' => .ok none s'
  | .error (.left v) s' => .ok (some v) s'
  | .error .continued s' => .ok none s'
  | .error e s' => .error e s'

/-- Go from state to state until a value comes out. -/
def iterate {σ : Type} (step : σ → Eval (σ ⊕ Value)) : Nat → σ → Eval Value
  | 0, _ => throw .endless
  | n + 1, a => do
    match ← step a with
    | .inl b => iterate step n b
    | .inr v => return v

/-- Fail at a place for what holds more than the limits allow. -/
def checkSize (w : World) (size : DataSize) (place : Place) : Eval Unit := do
  let exceeds (limit n : Nat) : Bool := limit ≠ 0 && limit < n
  if exceeds w.limits.maxString size.bytes then fail (.tooLarge "Length of string") place
  if exceeds w.limits.maxArray size.items then fail (.tooLarge "Size of array/BLOB") place
  if exceeds w.limits.maxMap size.entries then fail (.tooLarge "Size of object map") place

/-- The value, unless it holds more than the limits allow. -/
def sized (w : World) (v : Value) (place : Place) : Eval Value := do
  match v with
  | .str _ | .array _ | .map _ => checkSize w v.dataSize place
  | _ => pure ()
  return v

/-- The value in a slot. -/
def load : Slot → Eval Value
  | .own v => return v
  | .shared c => do return ((← get).cells[c]?).getD .unit

/-- The newest variable of a name. -/
def find? (name : String) : Eval (Option Binding) := do
  return (← get).scope.find? (·.name = name)

/-- The list with the first binding of a name changed. -/
def rebind (name : String) (slot : Slot) : List Binding → List Binding
  | [] => []
  | b :: rest =>
    if b.name = name then { b with slot := slot } :: rest else b :: rebind name slot rest

/-- Give the newest variable of a name a new value. -/
def store (name : String) (v : Value) : Eval Unit := do
  match ← find? name with
  | some ⟨_, _, .shared c⟩ => modify fun s => { s with cells := s.cells.setIfInBounds c v }
  | _ => modify fun s => { s with scope := rebind name (.own v) s.scope }

/-- Bind a variable in a block that started with `outer` variables in scope.
One of the same name in the same block makes room for it. -/
def bind (outer : Nat) (name : String) (constant : Bool) (v : Value) : Eval Unit :=
  modify fun s =>
    let inner := s.scope.length - outer
    let b : Binding := ⟨name, constant, .own v⟩
    if (s.scope.take inner).any (·.name = name) then
      { s with scope := replaceFirst b s.scope }
    else { s with scope := b :: s.scope }
where
  /-- The list with the first binding of the same name replaced. -/
  replaceFirst (b : Binding) : List Binding → List Binding
    | [] => []
    | c :: rest => if c.name = b.name then b :: rest else c :: replaceFirst b rest

/-- Put a variable in front of all others. -/
def push (name : String) (v : Value) : Eval Unit :=
  modify fun s => { s with scope := ⟨name, false, .own v⟩ :: s.scope }

/-- The cell that a variable shares from now on. -/
def share? (name : String) : Eval (Option Nat) := do
  match ← find? name with
  | none => return none
  | some ⟨_, _, .shared c⟩ => return some c
  | some ⟨_, _, .own v⟩ =>
    let c := (← get).cells.size
    modify fun s => { s with cells := s.cells.push v, scope := rebind name (.shared c) s.scope }
    return some c

end Eval

end LiveScene.Script
