import LiveScene.Sandbox.PoolRun

/-!
# Requests in time

A schedule drives a pool as a fair scheduler would: permits go to those who
have waited longest, scripts that end are answered in the order they
started, and those that do not end are stopped when their time is over.
Waiting takes the time of those that are waited for; scripts that end take
no time that matters beside the timeout.
-/

namespace LiveScene.Sandbox

namespace PoolRun

/-- Give permits to the requests in `queue` as long as there are any. Answers
with those that executed from then on, and those that still wait. -/
def letIn (s : PoolRun) : List Nat → PoolRun × List Nat × List Nat
  | [] => (s, [], [])
  | r :: queue =>
    if s.pool.permits = 0 then (s, [], r :: queue)
    else
      let (s, started, waiting) := (s.step (.grant r true)).letIn queue
      (s, r :: started, waiting)

/-- Whether the script of an executing request ends by itself. -/
def ends (s : PoolRun) (r : Nat) : Bool :=
  match s.requests[r]?, s.contextOf? r with
  | some q, some c => (c.evaluate s.pool.config q.code).outcome.isSome
  | _, _ => false

/-- Run requests to their ends. `executing` holds those at work and the times
at which they run out, in the order they started; `queue` holds those that
wait; `rounds` is at least the number of both together. -/
def settle (s : PoolRun) (now : Nat) (executing : List (Nat × Nat)) (queue : List Nat) :
    Nat → PoolRun
  | 0 => s
  | rounds + 1 =>
    let (s, started, queue) := s.letIn queue
    let executing := executing ++ started.map fun r => (r, now + s.pool.config.timeoutMs)
    match executing.find? fun (r, _) => s.ends r with
    | some (r, t) => (s.step (.answer r)).settle now (executing.erase (r, t)) queue rounds
    | none =>
      match executing with
      | [] => s
      | (r, t) :: rest => (s.step (.timeout r)).settle t rest queue rounds

/-- Make requests at once, in order, and run them to their ends. -/
def submitAll (s : PoolRun) (codes : List String) : PoolRun :=
  let first := s.requests.length
  let s := s.run (codes.map .request)
  let queue := ((List.range codes.length).map (first + ·)).filter s.isWaiting
  s.settle 0 [] queue (codes.length + 1)

/-- Make a request whose caller waits for a while only. -/
def submitFor (s : PoolRun) (code : String) (ms : Nat) : PoolRun :=
  let r := s.requests.length
  let s := s.run [.request code, .grant r true]
  if s.ends r then s.step (.answer r)
  else if s.pool.config.timeoutMs ≤ ms then s.step (.timeout r)
  else s.step (.drop r)

end PoolRun

end LiveScene.Sandbox
