import LiveScene.Live.Pipeline
import Mathlib.Data.List.Basic

/-!
# What a submission does with an answer

`Submission.Goes` lists once and for all what can follow from an answer: the
state of the submission afterwards, the changes of the snapshot, and the call
it makes. An overtaken submission changes and calls nothing; every other row
belongs to one kind of answer to one kind of call. Each stretch of a submission
at the stage of its phase is a row of the table (`Submission.Resumes.goes`).

`Happening.finalOutput?` is the output that an answer leaves to be shown, and no
row shows anything else (`Submission.Goes.snapshot_output`).
-/

namespace LiveScene.Live

open Diagnostics Scene Sandbox Compiler

namespace Phase

/-- Whether an answer is waited for. -/
def waits : Phase → Bool
  | compiling | executing _ | rendering _ => true
  | ended _ | dropped => false

/-- How the submission ended, if it has. -/
def result? : Phase → Option (Except SubmitError Report)
  | ended r => some r
  | compiling | executing _ | rendering _ | dropped => none

end Phase

namespace Happening

/-- The submission that a happening is about. -/
def seq? : Happening → Option Nat
  | compiled n _ | executed n _ | rendered n _ | abandoned n => some n
  | submitted _ | ticked | noted _ => none

/-- Whether a submission starts. -/
def isStart : Happening → Bool
  | submitted _ => true
  | _ => false

/-- The output that an answer leaves to be shown, if it ends a submission of the source
with one. -/
def finalOutput? (source : String) : Happening → Option Output
  | compiled _ (.ok c) =>
    if c.hasDiagnostics then
      some (.err ⟨classifyAll source c.grammar, classifyAll source c.semantic, []⟩)
    else none
  | executed _ (.ok (.ok exports)) =>
    if exports.default?.isNone then some (.err (.ofRuntime missingDefault)) else none
  | executed _ (.ok (.error r)) => some (.err (.ofRuntime r))
  | executed _ (.error e) => e.userRecord?.map fun r => .err (.ofRuntime r)
  | rendered _ (.ok r) => some (.ok r.figures)
  | rendered _ (.error (.rejected r)) => some (.err (.ofRuntime r))
  | _ => none

end Happening

namespace Stretch

variable {w : Stretch} {target : Stage}

/-- A move that the stage allows is noted, and made. -/
theorem advance_of_allows (h : w.submission.stage.allows target = true)
    (next : Stretch → Stretch) :
    w.advance target next =
      next { w.note (.moved w.submission.stage target) with submission.stage := target } := by
  simp [advance, Stage.advance, h]

end Stretch

/-- A submission that waits has not ended. -/
theorem Phase.result?_eq_none {phase : Phase} (hw : phase.waits = true) :
    phase.result? = none := by
  cases phase <;> first | rfl | cases hw

namespace Submission

variable {s : Submission} {fence : Bool} {latest : Nat} {h : Happening} {w : Stretch}

/-- Whether the stage is the one of the phase. -/
def Staged (s : Submission) : Prop :=
  match s.phase with
  | .compiling => s.stage = .compiling
  | .executing _ => s.stage = .executing
  | .rendering _ => s.stage = .rendering
  | .ended _ | .dropped => True

/-- The submission after it has ended with a report. -/
def reported (s : Submission) (stage : Stage) (published : Bool) : Submission :=
  { s with stage, published, phase := .ended (.ok ⟨s.seq, stage, published⟩) }

/-- The submission after it has ended without a report. -/
def failed (s : Submission) (e : SubmitError) : Submission :=
  { s with phase := .ended (.error e) }

/-- The submission waits for what happens, and `w` is what it does then. -/
inductive Resumes (s : Submission) (fence : Bool) (latest : Nat) : Happening → Stretch → Prop
  | compiled (hp : s.phase = .compiling) (a : Except CompileError Compilation) :
      Resumes s fence latest (.compiled s.seq a) (s.compiled fence latest a)
  | executed {code : String} (hp : s.phase = .executing code) (a : Except SandboxError Result) :
      Resumes s fence latest (.executed s.seq a) (s.executed fence latest code a)
  | rendered {request : RenderRequest} (hp : s.phase = .rendering request) (a : Rendered) :
      Resumes s fence latest (.rendered s.seq a) (s.rendered fence latest a)

/-- What follows from an answer for a submission that has been overtaken or has not: the
submission afterwards, its changes of the snapshot, and its call. -/
inductive Goes (s : Submission) :
    Bool → Happening → Submission → List Transition → Option Call → Prop
  | overtaken {h : Happening} : Goes s true h (s.reported .superseded s.published) [] none
  | uncompiled {stale : Bool} {e : CompileError} (hp : s.phase = .compiling) :
      Goes s stale (.compiled s.seq (.error e)) (s.failed (.compile e)) [] none
  | diagnosed {c : Compilation} (hp : s.phase = .compiling) (hc : c.hasDiagnostics = true) :
      Goes s false (.compiled s.seq (.ok c)) (s.reported (.blocked .diagnostics) true)
        [.errors ⟨classifyAll s.source c.grammar, classifyAll s.source c.semantic, []⟩] none
  | clean {c : Compilation} (hp : s.phase = .compiling) (hc : c.hasDiagnostics = false) :
      Goes s false (.compiled s.seq (.ok c))
        { s with stage := .executing, phase := .executing c.emitted } []
        (some (.execute c.emitted))
  | faulted {code : String} {r : ErrorRecord} (hp : s.phase = .executing code) :
      Goes s false (.executed s.seq (.ok (.error r))) (s.reported (.blocked .runtime) true)
        [.errors (.ofRuntime r)] none
  | timedOut {code : String} {ms : Nat} (hp : s.phase = .executing code) :
      Goes s false (.executed s.seq (.error (.timeout ms)))
        (s.reported (.blocked .runtime) true)
        [.errors (.ofRuntime (.unpositioned (SandboxError.timeout ms).message))] none
  | unclassified {code m : String} (hp : s.phase = .executing code) :
      Goes s false (.executed s.seq (.error (.unclassified m)))
        (s.reported (.blocked .runtime) s.published) [] none
  | broken {code : String} {e : SandboxError} (hp : s.phase = .executing code)
      (he : e.isInfrastructure = true) :
      Goes s false (.executed s.seq (.error e)) (s.failed (.sandbox e)) [] none
  | valueless {code : String} {x : Exports} (hp : s.phase = .executing code)
      (hx : x.default? = none) :
      Goes s false (.executed s.seq (.ok (.ok x))) (s.reported (.blocked .runtime) true)
        [.errors (.ofRuntime missingDefault)] none
  | exported {code : String} {x : Exports} {scene : Json} (hp : s.phase = .executing code)
      (hx : x.default? = some scene) :
      Goes s false (.executed s.seq (.ok (.ok x)))
        { s with stage := .rendering, published := true, phase := .rendering ⟨s.source, scene⟩ }
        [.debug ⟨code, some scene⟩] (some (.render ⟨s.source, scene⟩))
  | rendered {request : RenderRequest} {r : RenderResult} (hp : s.phase = .rendering request) :
      Goes s false (.rendered s.seq (.ok r)) (s.reported .ready true)
        [.output (.ok r.figures), .perf r.perf] none
  | rejected {request : RenderRequest} {r : ErrorRecord} (hp : s.phase = .rendering request) :
      Goes s false (.rendered s.seq (.error (.rejected r)))
        (s.reported (.blocked .render) true) [.errors (.ofRuntime r)] none
  | mismatched {request : RenderRequest} {f : BodyFault} {body : String}
      (hp : s.phase = .rendering request) :
      Goes s false (.rendered s.seq (.error (.mismatch f body))) (s.failed (.mismatch f)) [] none

/-- A submission that may end at a stage is reported at it. -/
theorem finish_of_allows {target : Stage} (h : w.submission.stage.allows target = true) :
    w.finish target =
      { w.note (.moved w.submission.stage target) with
        submission := w.submission.reported target w.submission.published } := by
  rw [Stretch.finish, Stretch.advance_of_allows h]
  rfl

/-- An overtaken submission that waits ends without a change and without a call. -/
theorem supersede_of_allows (h : s.stage.allows .superseded = true) (n : Nat) :
    ((Stretch.ofSubmission s).supersede n).submission =
        s.reported .superseded s.published ∧
      ((Stretch.ofSubmission s).supersede n).transitions = [] ∧
      ((Stretch.ofSubmission s).supersede n).call = none := by
  rw [Stretch.supersede, finish_of_allows (by exact h)]
  exact ⟨rfl, rfl, rfl⟩

/-- What follows from an answer of the compiler. -/
theorem compiled_goes (hp : s.phase = .compiling) (hs : s.stage = .compiling)
    (a : Except CompileError Compilation) :
    s.Goes (s.isStale fence latest) (.compiled s.seq a) (s.compiled fence latest a).submission
      (s.compiled fence latest a).transitions (s.compiled fence latest a).call := by
  cases a with
  | error e => exact .uncompiled hp
  | ok c =>
    cases hstale : s.isStale fence latest with
    | true =>
      have hsup := supersede_of_allows (s := s) (by rw [hs]; rfl) latest
      simp only [Submission.compiled, hstale, if_true, hsup]
      exact .overtaken
    | false =>
      cases hc : c.hasDiagnostics with
      | true =>
        simp only [Submission.compiled, hstale, hc, if_true, Bool.false_eq_true, if_false,
          Stretch.blockOnDiagnostics]
        have hallow : s.stage.allows (.blocked .diagnostics) = true := by rw [hs]; rfl
        rw [finish_of_allows (by exact hallow)]
        exact .diagnosed hp hc
      | false =>
        simp only [Submission.compiled, hstale, hc, Bool.false_eq_true, if_false]
        have hallow : s.stage.allows .executing = true := by rw [hs]; rfl
        rw [Stretch.advance_of_allows (by exact hallow)]
        exact .clean hp hc

/-- An error of a script is shown, and the submission ends blocked on it. -/
theorem blockOnRuntime_of_executing (hs : w.submission.stage = .executing) (r : ErrorRecord) :
    (w.blockOnRuntime r).submission = w.submission.reported (.blocked .runtime) true ∧
      (w.blockOnRuntime r).transitions = w.transitions ++ [.errors (.ofRuntime r)] ∧
      (w.blockOnRuntime r).call = w.call := by
  have hallow : w.submission.stage.allows (.blocked .runtime) = true := by rw [hs]; rfl
  rw [Stretch.blockOnRuntime, finish_of_allows (by exact hallow)]
  exact ⟨rfl, rfl, rfl⟩

/-- What follows from exports: the request of the renderer, or the error that there is nothing
to show. -/
theorem exported_goes {code : String} (hp : s.phase = .executing code)
    (hs : s.stage = .executing) (x : Exports) :
    s.Goes false (.executed s.seq (.ok (.ok x)))
      (exported (.ofSubmission s) code x).submission
      (exported (.ofSubmission s) code x).transitions
      (exported (.ofSubmission s) code x).call := by
  cases hx : x.default? with
  | none =>
    simp only [exported, hx, blockOnRuntime_of_executing (w := .ofSubmission s) hs]
    exact .valueless hp hx
  | some scene =>
    simp only [exported, hx]
    have hallow : s.stage.allows .rendering = true := by rw [hs]; rfl
    rw [Stretch.advance_of_allows (by exact hallow)]
    exact .exported hp hx

/-- What follows from an answer of the sandbox. -/
theorem executed_goes {code : String} (hp : s.phase = .executing code)
    (hs : s.stage = .executing) (a : Except SandboxError Result) :
    s.Goes (s.isStale fence latest) (.executed s.seq a)
      (s.executed fence latest code a).submission
      (s.executed fence latest code a).transitions (s.executed fence latest code a).call := by
  have hblock := fun (w : Stretch) (r : ErrorRecord) (hw : w.submission = s) =>
    blockOnRuntime_of_executing (w := w) (by rw [hw]; exact hs) r
  cases hstale : s.isStale fence latest with
  | true =>
    have hsup := supersede_of_allows (s := s) (by rw [hs]; rfl) latest
    simp only [Submission.executed, hstale, if_true, hsup]
    exact .overtaken
  | false =>
    simp only [Submission.executed, hstale, Bool.false_eq_true, if_false]
    match a with
    | .ok (.ok x) => exact exported_goes hp hs x
    | .ok (.error r) =>
      simp only [hblock ((Stretch.ofSubmission s).note _) r rfl]
      exact .faulted hp
    | .error (.unclassified m) =>
      have hallow : s.stage.allows (.blocked .runtime) = true := by rw [hs]; rfl
      dsimp only
      rw [finish_of_allows (by exact hallow)]
      exact .unclassified hp
    | .error (.timeout ms) =>
      simp only [SandboxError.userRecord?, hblock ((Stretch.ofSubmission s).note _) _ rfl]
      exact .timedOut hp
    | .error (.contextLost _) => exact .broken hp rfl
    | .error (.spawn _) => exact .broken hp rfl
    | .error .closed => exact .broken hp rfl

/-- What follows from an answer of the renderer. -/
theorem rendered_goes {request : RenderRequest} (hp : s.phase = .rendering request)
    (hs : s.stage = .rendering) (a : Rendered) :
    s.Goes (s.isStale fence latest) (.rendered s.seq a) (s.rendered fence latest a).submission
      (s.rendered fence latest a).transitions (s.rendered fence latest a).call := by
  cases hstale : s.isStale fence latest with
  | true =>
    have hsup := supersede_of_allows (s := s) (by rw [hs]; rfl) latest
    simp only [Submission.rendered, hstale, if_true, hsup]
    exact .overtaken
  | false =>
    simp only [Submission.rendered, hstale, Bool.false_eq_true, if_false]
    match a with
    | .ok r =>
      have hallow : s.stage.allows .ready = true := by rw [hs]; rfl
      dsimp only
      rw [finish_of_allows (by exact hallow)]
      exact .rendered hp
    | .error (.rejected r) =>
      have hallow : s.stage.allows (.blocked .render) = true := by rw [hs]; rfl
      dsimp only
      rw [finish_of_allows (by exact hallow)]
      exact .rejected hp
    | .error (.mismatch f body) => exact .mismatched hp

theorem Resumes.seq? (hr : s.Resumes fence latest h w) : h.seq? = some s.seq := by
  cases hr <;> rfl

/-- Only a submission that waits resumes. -/
theorem Resumes.waits (hr : s.Resumes fence latest h w) : s.phase.waits = true := by
  cases hr with
  | compiled hp _ => rw [hp]; rfl
  | executed hp _ => rw [hp]; rfl
  | rendered hp _ => rw [hp]; rfl

/-- Each stretch of a submission at the stage of its phase is a row of the table. -/
theorem Resumes.goes (hs : s.Staged) (hr : s.Resumes fence latest h w) :
    s.Goes (s.isStale fence latest) h w.submission w.transitions w.call := by
  cases hr with
  | compiled hp a => exact compiled_goes hp (by simpa [Staged, hp] using hs) a
  | executed hp a => exact executed_goes hp (by simpa [Staged, hp] using hs) a
  | rendered hp a => exact rendered_goes hp (by simpa [Staged, hp] using hs) a

variable {stale : Bool} {s' : Submission} {ts : List Transition} {call : Option Call}

theorem Goes.seq (hg : s.Goes stale h s' ts call) : s'.seq = s.seq := by
  cases hg <;> rfl

theorem Goes.source (hg : s.Goes stale h s' ts call) : s'.source = s.source := by
  cases hg <;> rfl

/-- Whatever the answer, the stage is that of the phase again. -/
theorem Goes.staged (hg : s.Goes stale h s' ts call) : s'.Staged := by
  cases hg <;> simp [Staged, reported, failed]

/-- What a submission goes on with is about it, unless it has been overtaken. -/
theorem Goes.seq? (hg : s.Goes false h s' ts call) : h.seq? = some s.seq := by
  cases hg <;> rfl

/-- An answer that is waited for is waited for once. -/
theorem Goes.phase_ne (hw : s.phase.waits = true) (hg : s.Goes stale h s' ts call) :
    s'.phase ≠ s.phase := by
  cases hg with
  | overtaken =>
    intro he
    rw [← he] at hw
    cases hw
  | uncompiled hp | diagnosed hp _ | clean hp _ | faulted hp | timedOut hp | unclassified hp
  | broken hp _ | valueless hp _ | exported hp _ | rendered hp | rejected hp | mismatched hp =>
    rw [hp]
    nofun

/-- A submission that has been overtaken changes nothing, calls nothing, and ends. -/
theorem Goes.of_stale (hg : s.Goes true h s' ts call) : ts = [] ∧ call = none := by
  cases hg <;> exact ⟨rfl, rfl⟩

/-- No answer changes the source that is shown. -/
theorem Goes.snapshot_source (hg : s.Goes stale h s' ts call) (x : Snapshot) :
    (ts.foldl Snapshot.apply x).source = x.source := by
  cases hg <;> rfl

/-- An answer to a submission that has not been overtaken leaves its final output to be
shown, and else the output as it is. -/
theorem Goes.snapshot_output (hg : s.Goes false h s' ts call) (x : Snapshot) :
    (ts.foldl Snapshot.apply x).output = (h.finalOutput? s.source).getD x.output := by
  cases hg with
  | diagnosed _ hc => simp [Happening.finalOutput?, hc, Snapshot.apply]
  | clean _ hc => simp [Happening.finalOutput?, hc]
  | valueless _ hx => simp [Happening.finalOutput?, hx, Snapshot.apply]
  | exported _ hx => simp [Happening.finalOutput?, hx, Snapshot.apply]
  | broken _ he =>
    rename_i code e _
    cases e <;> first | rfl | simp [SandboxError.isInfrastructure] at he
  | _ => rfl

/-- Only a submission that waits goes on. -/
theorem Goes.waits (hg : s.Goes false h s' ts call) : s.phase.waits = true := by
  cases hg with
  | uncompiled hp | diagnosed hp _ | clean hp _ | faulted hp | timedOut hp | unclassified hp
  | broken hp _ | valueless hp _ | exported hp _ | rendered hp | rejected hp | mismatched hp =>
    rw [hp]
    rfl

/-- An answer that does not end the submission leaves no final output. -/
theorem Goes.finalOutput?_eq_none (hg : s.Goes false h s' ts call)
    (hr : s'.phase.result? = none) : h.finalOutput? s.source = none := by
  cases hg with
  | clean _ hc => simp [Happening.finalOutput?, hc]
  | exported _ hx => simp [Happening.finalOutput?, hx]
  | _ => cases hr

end Submission

end LiveScene.Live
