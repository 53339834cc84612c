/-!
# Notices to many listeners

A `Broadcast` sends each notice to every listener. It keeps only the last
`kept` notices: a listener that is further behind is told how many it has
lost, and goes on with the oldest one kept. A listener gets what is sent
after it subscribed, each notice once and in order.
-/

namespace LiveScene.Live

/-- The power of two at or above a number, at least 1. -/
def powerAbove (n : Nat) : Nat := if n ≤ 1 then 1 else Nat.pow 2 (Nat.log2 (n - 1) + 1)

/-- Notices of one kind and the listeners to them. -/
structure Broadcast (α : Type) where
  /-- How many notices are kept. -/
  kept : Nat
  /-- All notices sent, oldest first. -/
  sent : List α
  /-- For each listener, how many notices are behind it. -/
  listeners : List Nat
  deriving Repr, Inhabited

/-- What a listener gets. -/
inductive Received (α : Type) where
  | nothing
  | notice (a : α)
  /-- So many notices are gone. -/
  | lagged (lost : Nat)
  deriving Repr

namespace Broadcast

variable {α : Type}

/-- Nothing sent, nobody listening. The room is a power of two. -/
def ofCapacity (capacity : Nat) : Broadcast α := ⟨powerAbove capacity, [], []⟩

/-- Send a notice. -/
def send (b : Broadcast α) (a : α) : Broadcast α := { b with sent := b.sent ++ [a] }

/-- One listener more; it is numbered by how many there were. -/
def subscribe (b : Broadcast α) : Broadcast α :=
  { b with listeners := b.listeners ++ [b.sent.length] }

/-- How many notices are no longer kept. -/
def gone (b : Broadcast α) : Nat := b.sent.length - b.kept

/-- The next notice for a listener: `none` if there is no such listener. -/
def receive (b : Broadcast α) (listener : Nat) : Option (Received α × Broadcast α) := do
  let next ← b.listeners[listener]?
  let moved (n : Nat) : Broadcast α := { b with listeners := b.listeners.set listener n }
  if next < b.gone then return (.lagged (b.gone - next), moved b.gone)
  match b.sent[next]? with
  | none => return (.nothing, b)
  | some a => return (.notice a, moved (next + 1))

end Broadcast

end LiveScene.Live
