import LiveScene.Live.Broadcast
import LiveScene.Live.Snapshot

/-!
# The store of snapshots

The store holds the current snapshot and all earlier ones, and tells its
listeners of changes. Where time passes, changes are gathered: the first one
schedules a notice one tick later and marks the store `dirty`, and further
changes ride along until the notice carries the snapshot current by then.
Where no time passes, every change is told at once.

`Timeline` adds a clock in milliseconds to a store.
-/

namespace LiveScene.Live

/-- Snapshots, present and past, and the notices about them. -/
structure Store where
  current : Snapshot
  /-- The earlier snapshots, oldest first. -/
  history : List Snapshot
  /-- Whether a change waits to be told. -/
  dirty : Bool
  /-- How many notices are scheduled. -/
  scheduled : Nat
  notices : Broadcast Snapshot
  /-- How many notices were sent. -/
  sentCount : Nat
  deriving Repr

namespace Store

/-- A store at its first snapshot. -/
def ofInitial (initial : Snapshot) (capacity : Nat) : Store :=
  ⟨initial, [], false, 0, .ofCapacity capacity, 0⟩

/-- Tell the current snapshot. -/
def flush (s : Store) : Store :=
  { s with dirty := false, notices := s.notices.send s.current, sentCount := s.sentCount + 1 }

/-- The scheduled notice is sent. -/
def fire (s : Store) : Store :=
  if s.scheduled = 0 then s else { s.flush with scheduled := s.scheduled - 1 }

/-- Make the next snapshot current. -/
def advance (s : Store) (t : Transition) : Store :=
  { s with current := s.current.apply t, history := s.history ++ [s.current] }

/-- See to it that the change is told: now, or later if time passes and no
notice is under way. -/
def announce (s : Store) (timed : Bool) : Store :=
  if s.dirty then s
  else if timed then { s with dirty := true, scheduled := s.scheduled + 1 }
  else flush { s with dirty := true }

/-- Apply one change and announce it. -/
def apply (s : Store) (timed : Bool) (t : Transition) : Store := (s.advance t).announce timed

end Store

/-- A store with a clock. Without a tick no time passes. -/
structure Timeline where
  store : Store
  /-- How long changes are gathered, in milliseconds. -/
  tick : Option Nat
  now : Nat
  /-- When the scheduled notice is due. -/
  due : Option Nat
  deriving Repr

namespace Timeline

/-- A store at time 0. -/
def new (store : Store) (tick : Option Nat) : Timeline := ⟨store, tick, 0, none⟩

/-- Apply one change. -/
def apply (l : Timeline) (t : Transition) : Timeline :=
  { l with
    store := l.store.apply l.tick.isSome t
    due := if l.store.dirty then l.due else l.tick.map (l.now + ·) }

/-- Let time pass; a notice that is due is sent. -/
def advance (l : Timeline) (ms : Nat) : Timeline :=
  let now := l.now + ms
  match l.due with
  | some due =>
    if due ≤ now then { l with store := l.store.fire, now := now, due := none }
    else { l with now := now }
  | none => { l with now := now }

end Timeline

end LiveScene.Live
