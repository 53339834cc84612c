import LiveScene.Sandbox.Pool

/-!
# Requests to a pool

`PoolRun` is a pool with all requests made to it so far. `PoolRun.step` is
what an event does: a request comes in, gets its permit, is answered, loses
its context, runs out of time or is dropped by its caller, or the pool is
shut down. Each event is one stretch between two points where a request
waits. An event that does not apply in a state changes nothing.

A request waits for a permit first. Once it has one it takes a context, and
keeps both until it ends.
-/

namespace LiveScene.Sandbox

/-- How a request ended. -/
inductive RequestEnd where
  /-- With an outcome, by the context of that id. -/
  | answered (context : Nat) (outcome : Outcome)
  | failed (error : SandboxError)
  /-- Its caller does not wait any more. -/
  | dropped
  deriving Inhabited

/-- How far a request has come. -/
inductive Phase where
  | waiting
  | executing (context : Context)
  | ended (how : RequestEnd)
  deriving Inhabited

/-- A request. -/
structure Request where
  code : String
  phase : Phase
  deriving Inhabited

/-- A pool and the requests made to it, numbered from 0 on. -/
structure PoolRun where
  pool : Pool
  requests : List Request
  deriving Inhabited

/-- What happens to a pool. -/
inductive PoolEvent where
  /-- A new request. -/
  | request (code : String)
  /-- A waiting request gets a permit; `spawns` says whether a new context could be made. -/
  | grant (r : Nat) (spawns : Bool)
  /-- The context of a request answers. -/
  | answer (r : Nat)
  /-- The context of a request goes away. -/
  | lost (r : Nat)
  /-- The time of a request is over. -/
  | timeout (r : Nat)
  /-- The caller of a request stops waiting. -/
  | drop (r : Nat)
  | shutdown
  deriving Repr

namespace PoolRun

/-- A new pool. -/
def new (config : Config) : PoolRun := ⟨.new config, []⟩

/-- With another phase for a request. -/
def setPhase (s : PoolRun) (r : Nat) (phase : Phase) : PoolRun :=
  { s with requests := s.requests.modify r fun q => { q with phase } }

/-- The context of an executing request. -/
def contextOf? (s : PoolRun) (r : Nat) : Option Context :=
  match s.requests[r]? with
  | some ⟨_, .executing c⟩ => some c
  | _ => none

/-- The pool with a permit given back. -/
def freePermit (p : Pool) : Pool := { p with permits := p.permits + 1 }

/-- End an executing request without an outcome. -/
def abort (s : PoolRun) (r : Nat) (c : Context) (how : RequestEnd) : PoolRun :=
  { s with pool := freePermit (s.pool.discard c) }.setPhase r (.ended how)

/-- End the requests that wait for a permit. -/
def refuseWaiting (requests : List Request) : List Request :=
  requests.map fun q =>
    match q.phase with
    | .waiting => { q with phase := .ended (.failed .closed) }
    | _ => q

/-- What an event does. -/
def step (s : PoolRun) : PoolEvent → PoolRun
  | .request code =>
    let phase := if s.pool.closed then .ended (.failed .closed) else .waiting
    { s with requests := s.requests ++ [⟨code, phase⟩] }
  | .grant r spawns =>
    match s.requests[r]? with
    | some ⟨_, .waiting⟩ =>
      if s.pool.permits = 0 then s
      else
        match s.pool.acquire spawns with
        | some (c, pool) =>
          { s with pool := { pool with permits := pool.permits - 1 } }.setPhase r (.executing c)
        | none => s.setPhase r (.ended (.failed (.spawn "")))
    | _ => s
  | .answer r =>
    match s.requests[r]?, s.contextOf? r with
    | some q, some c =>
      match (c.evaluate s.pool.config q.code).outcome with
      | some outcome =>
        { s with pool := freePermit (s.pool.release c.answered) }.setPhase r
          (.ended (.answered c.id outcome))
      | none => s
    | _, _ => s
  | .lost r =>
    match s.contextOf? r with
    | some c => s.abort r c (.failed (.contextLost (toString c.id)))
    | none => s
  | .timeout r =>
    match s.contextOf? r with
    | some c => s.abort r c (.failed (.timeout s.pool.config.timeoutMs))
    | none => s
  | .drop r =>
    match s.requests[r]? with
    | some ⟨_, .waiting⟩ => s.setPhase r (.ended .dropped)
    | some ⟨_, .executing c⟩ => s.abort r c .dropped
    | _ => s
  | .shutdown => { pool := s.pool.shutdown, requests := refuseWaiting s.requests }

/-- What a list of events does. -/
def run (s : PoolRun) (events : List PoolEvent) : PoolRun := events.foldl step s

/-- How a request ended, if it has. -/
def endOf? (s : PoolRun) (r : Nat) : Option RequestEnd :=
  match s.requests[r]? with
  | some ⟨_, .ended how⟩ => some how
  | _ => none

/-- Whether a request waits for a permit. -/
def isWaiting (s : PoolRun) (r : Nat) : Bool :=
  match s.requests[r]? with
  | some ⟨_, .waiting⟩ => true
  | _ => false

end PoolRun

end LiveScene.Sandbox
