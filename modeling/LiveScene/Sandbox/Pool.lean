import LiveScene.Sandbox.Context

/-!
# A pool of contexts

The pool keeps a few idle contexts and takes the one released last before it
makes a new one. A context that failed, ran out of time or was left behind
by its caller is cancelled and never used again. After `shutdown` no context
is kept any more.

The operations are those between two points where a request waits, so
`acquire`, `release`, `discard` and `shutdown` each happen at once.
-/

namespace LiveScene.Sandbox

/-- What the pool counts. -/
structure PoolStats where
  totalCreated : Nat
  /-- Requests that got an idle context. -/
  reused : Nat
  /-- Executions that ended with an outcome. -/
  executions : Nat
  discarded : Nat
  active : Nat
  idle : Nat
  deriving DecidableEq, Repr, Inhabited

namespace PoolStats

/-- Before anything happened. -/
def zero : PoolStats := ⟨0, 0, 0, 0, 0, 0⟩

/-- The share of requests that got an idle context. -/
def reuseRate (s : PoolStats) : Float :=
  let n := s.totalCreated + s.reused
  if n = 0 then 0.0 else Float.ofNat s.reused / Float.ofNat n

/-- The JSON form. -/
def toJson (s : PoolStats) : Json :=
  .obj [("total_created", .nat s.totalCreated), ("reused", .nat s.reused),
    ("executions", .nat s.executions), ("discarded", .nat s.discarded),
    ("active", .nat s.active), ("idle", .nat s.idle)]

end PoolStats

/-- A pool. -/
structure Pool where
  config : Config
  /-- Contexts for reuse, the one released last first. -/
  idle : List Context
  /-- The contexts that are executing, by their ids. -/
  active : List Nat
  /-- How many more requests may execute. -/
  permits : Nat
  closed : Bool
  stats : PoolStats
  /-- The id of the next new context. -/
  nextId : Nat
  deriving Repr, Inhabited

namespace Pool

/-- How many requests may execute at once: one at least. -/
def capacity (config : Config) : Nat := max config.maxContexts 1

/-- A pool without contexts. -/
def new (config : Config) : Pool :=
  ⟨config, [], [], capacity config, false, .zero, 0⟩

/-- The counts of idle and executing contexts taken anew. -/
def refresh (p : Pool) : Pool :=
  { p with stats := { p.stats with active := p.active.length, idle := p.idle.length } }

/-- Take a context: the idle one released last, else a new one if one can be made. -/
def acquire (p : Pool) (spawns : Bool) : Option (Context × Pool) :=
  match p.idle with
  | c :: rest =>
    some (c, refresh { p with
      idle := rest
      active := c.id :: p.active
      stats := { p.stats with reused := p.stats.reused + 1 } })
  | [] =>
    if spawns then
      let c := Context.fresh p.nextId
      some (c, refresh { p with
        active := c.id :: p.active
        nextId := p.nextId + 1
        stats := { p.stats with totalCreated := p.stats.totalCreated + 1 } })
    else none

/-- Give back a context that answered; it is kept if there is room for it. -/
def release (p : Pool) (c : Context) : Pool :=
  refresh { p with
    active := p.active.erase c.id
    idle := if !p.closed && p.idle.length < p.config.maxIdle then c :: p.idle else p.idle
    stats := { p.stats with executions := p.stats.executions + 1 } }

/-- Cancel a context and let go of it. -/
def discard (p : Pool) (c : Context) : Pool :=
  refresh { p with
    active := p.active.erase c.id
    stats := { p.stats with discarded := p.stats.discarded + 1 } }

/-- Admit no more requests and let go of the idle contexts. -/
def shutdown (p : Pool) : Pool :=
  { p with closed := true, idle := [], stats := { p.stats with idle := 0 } }

/-- The number of executing contexts. -/
def activeCount (p : Pool) : Nat := p.active.length

end Pool

end LiveScene.Sandbox
