import LiveScene.Live.Services

/-!
# Submissions in time

A rehearsal starts submissions at given times over services with given
delays, and plays through what happens in the order of time. Of two things at
one time the one that was settled first comes first. A submission goes on
without a break as long as the services answer it at once.
-/

namespace LiveScene.Live

/-- Something that is due. -/
inductive Due where
  /-- A submission starts; it is the one of this place in the plan. -/
  | start (index : Nat) (source : String)
  /-- A service answers. -/
  | answer (seq : Nat) (notes : List Note) (happening : Happening)

/-- A pipeline in time. -/
structure Rehearsal where
  pipeline : Pipeline
  /-- What is due and when, the next thing first. -/
  agenda : List (Nat × Due)
  /-- The places in the plan of the submissions that have started, in their order. -/
  started : List Nat
  /-- The numbers of the submissions that have ended, in their order. -/
  finished : List Nat

namespace Rehearsal

/-- An agenda with one thing more, after all that is due no later. -/
def insertDue (time : Nat) (d : Due) : List (Nat × Due) → List (Nat × Due)
  | [] => [(time, d)]
  | (t, e) :: rest =>
    if t ≤ time then (t, e) :: insertDue time d rest else (time, d) :: (t, e) :: rest

/-- The answer that a submission waits for, and nothing if it has ended. -/
def answer? (s : Services) (p : Pipeline) (seq : Nat) : Option (Answered Happening) := do
  let sub ← p.submission? seq
  match sub.phase with
  | .compiling => return (s.compile sub.source).map (.compiled seq)
  | .executing code => return (s.execute code).map (.executed seq)
  | .rendering request => return (s.render request).map (.rendered seq)
  | .ended _ | .dropped => none

/-- A service answers. -/
def take (r : Rehearsal) (seq : Nat) (notes : List Note) (h : Happening) : Rehearsal :=
  { r with pipeline := r.pipeline.receive seq notes h }

/-- Let a submission go on until it has to wait or ends. No submission asks
more than three times. -/
def proceed (s : Services) (now seq : Nat) : Nat → Rehearsal → Rehearsal
  | 0, r => r
  | fuel + 1, r =>
    match answer? s r.pipeline seq with
    | none => { r with finished := r.finished ++ [seq] }
    | some a =>
      if a.delay = 0 then proceed s now seq fuel (r.take seq a.notes a.value)
      else { r with agenda := insertDue (now + a.delay) (.answer seq a.notes a.value) r.agenda }

/-- The number of stretches of a submission. -/
def stretches : Nat := 4

/-- Do one thing that is due. -/
def perform (s : Services) (now : Nat) (r : Rehearsal) : Due → Rehearsal
  | .start index source =>
    let p := r.pipeline.step (.submitted source)
    proceed s now p.latest stretches { r with pipeline := p, started := r.started ++ [index] }
  | .answer seq notes h => proceed s now seq stretches (r.take seq notes h)

/-- Do all that is due, as far as the fuel reaches. -/
def play (s : Services) : Nat → Rehearsal → Rehearsal
  | 0, r => r
  | fuel + 1, r =>
    match r.agenda with
    | [] => r
    | (now, d) :: rest => play s fuel (perform s now { r with agenda := rest } d)

/-- Play through submissions that start at given times. -/
def ofPlan (s : Services) (p : Pipeline) (plan : List (Nat × String)) : Rehearsal :=
  let agenda := ((List.range plan.length).zip plan).foldl
    (fun agenda (i, time, source) => insertDue time (.start i source) agenda) []
  play s (stretches * plan.length) ⟨p, agenda, [], []⟩

/-- The number of a submission, from its place in a plan that was played on top
of a number of earlier submissions. -/
def seqOf (r : Rehearsal) (earlier index : Nat) : Nat := earlier + r.started.idxOf index + 1

/-- How the submissions of a plan ended, in the order of the plan. -/
def results (r : Rehearsal) (earlier : Nat) : List (Option (Except SubmitError Report)) :=
  (List.range r.started.length).map fun i => r.pipeline.result? (r.seqOf earlier i)

/-- The places in the plan of the submissions in the order they ended. -/
def finishedPlaces (r : Rehearsal) (earlier : Nat) : List Nat :=
  r.finished.filterMap fun seq => r.started[seq - earlier - 1]?

end Rehearsal

end LiveScene.Live
