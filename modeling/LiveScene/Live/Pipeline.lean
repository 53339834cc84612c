import LiveScene.Live.Store
import LiveScene.Live.Submission

/-!
# Overlapping submissions

A `Pipeline` runs any number of submissions over one store. None waits for
another. What happens to it is a list of `Happening`s in any order: a start,
an answer of a service, a submission that nobody waits for any more, or the
passing of time. A happening that does not fit, such as the answer to a call
nobody made, changes nothing.
-/

namespace LiveScene.Live

open Sandbox Compiler

/-- Submissions over a store. -/
structure Pipeline where
  /-- Whether the results of overtaken submissions are dropped. -/
  fence : Bool
  /-- In the order of their numbers, the last one the newest. -/
  submissions : List Submission
  store : Store
  /-- The calls to services with the numbers of their submissions, in order. -/
  calls : List (Nat × Call)
  journal : List Entry

/-- Something that happens to a pipeline. -/
inductive Happening where
  | submitted (source : String)
  | compiled (seq : Nat) (answer : Except CompileError Compilation)
  | executed (seq : Nat) (answer : Except SandboxError Result)
  | rendered (seq : Nat) (answer : Rendered)
  /-- Nobody waits for the submission any more. -/
  | abandoned (seq : Nat)
  /-- A scheduled notice of the store is sent. -/
  | ticked
  /-- A service has something noted. -/
  | noted (entry : Entry)

namespace Pipeline

/-- No submissions yet. -/
def new (fence : Bool) (store : Store) : Pipeline := ⟨fence, [], store, [], []⟩

/-- The pipeline of settings. -/
def ofSettings (s : Settings) : Pipeline :=
  new s.pipeline.fenceStaleResults (.ofInitial .default s.store.notificationCapacity)

/-- The number of the newest submission. -/
def latest (p : Pipeline) : Nat := p.submissions.length

/-- The submission of a number. -/
def submission? (p : Pipeline) (seq : Nat) : Option Submission :=
  if seq = 0 then none else p.submissions[seq - 1]?

/-- The submission of a number in another state. -/
def put (p : Pipeline) (s : Submission) : Pipeline :=
  { p with submissions := p.submissions.set (s.seq - 1) s }

/-- Carry out what a submission did: its changes, its call, its notes. -/
def perform (p : Pipeline) (w : Stretch) : Pipeline :=
  { p.put w.submission with
    store := w.transitions.foldl (fun st t => st.apply true t) p.store
    calls := p.calls ++ (w.call.map fun c => (w.submission.seq, c)).toList
    journal := p.journal ++ w.events.map fun e => ⟨some w.submission.seq, e⟩ }

/-- Start a submission. -/
def submit (p : Pipeline) (source : String) : Pipeline :=
  let w := Submission.start (p.latest + 1) source
  perform { p with submissions := p.submissions ++ [w.submission] } w

/-- What follows from a happening. -/
def step (p : Pipeline) : Happening → Pipeline
  | .submitted source => p.submit source
  | .compiled seq answer =>
    match p.submission? seq with
    | some s =>
      match s.phase with
      | .compiling => p.perform (s.compiled p.fence p.latest answer)
      | _ => p
    | none => p
  | .executed seq answer =>
    match p.submission? seq with
    | some s =>
      match s.phase with
      | .executing emitted => p.perform (s.executed p.fence p.latest emitted answer)
      | _ => p
    | none => p
  | .rendered seq answer =>
    match p.submission? seq with
    | some s =>
      match s.phase with
      | .rendering _ => p.perform (s.rendered p.fence p.latest answer)
      | _ => p
    | none => p
  | .abandoned seq =>
    match p.submission? seq with
    | some s =>
      match s.phase with
      | .ended _ => p
      | _ => p.put { s with phase := .dropped }
    | none => p
  | .ticked => { p with store := p.store.fire }
  | .noted e => { p with journal := p.journal ++ [e] }

/-- What follows from happenings, one after another. -/
def run (p : Pipeline) (hs : List Happening) : Pipeline := hs.foldl step p

/-- How a submission ended, if it did. -/
def result? (p : Pipeline) (seq : Nat) : Option (Except SubmitError Report) := do
  match (← p.submission? seq).phase with
  | .ended r => some r
  | _ => none

/-- The sources given to the compiler. -/
def compiledSources (p : Pipeline) : List String :=
  p.calls.filterMap fun (_, c) => match c with
    | .compile s => some s
    | _ => none

/-- The code given to the sandbox. -/
def executedCode (p : Pipeline) : List String :=
  p.calls.filterMap fun (_, c) => match c with
    | .execute s => some s
    | _ => none

/-- The requests given to the renderer. -/
def renderRequests (p : Pipeline) : List Scene.RenderRequest :=
  p.calls.filterMap fun (_, c) => match c with
    | .render r => some r
    | _ => none

end Pipeline

end LiveScene.Live
