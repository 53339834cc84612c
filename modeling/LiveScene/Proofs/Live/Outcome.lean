import LiveScene.Proofs.Live.Steps

/-!
# What one submission leaves

`Answers` is what the three services answer, and `Answers.Leaves` what a
submission then leaves: one row for each way it can end, with the whole
snapshot, the calls that were made, and how it ended. It says nothing of
stages, stretches or other submissions.

`Pipeline.alone` is that a submission that no other one overlaps leaves
exactly this, from any store and after any earlier submissions. On its way it
stands where `Answers.Course` says, and what it waits for is the answer to its
last call (`Submission.awaited?`).
-/

namespace LiveScene.Live

open Diagnostics Scene Sandbox Compiler

/-- What the three services answer to a submission. -/
structure Answers where
  compiler : Except CompileError Compilation
  sandbox : Except SandboxError Result
  renderer : Rendered

/-- The snapshot with the slate cleared for a source. -/
def Snapshot.cleared (x : Snapshot) (source : String) : Snapshot :=
  { x with source, output := .err .empty }

/-- The call whose answer a submission waits for. -/
def Submission.awaited? (s : Submission) : Option Call :=
  match s.phase with
  | .compiling => some (.compile s.source)
  | .executing code => some (.execute code)
  | .rendering request => some (.render request)
  | .ended _ | .dropped => none

namespace Answers

/-- The answer to a call of the submission of a number. -/
def answer (w : Answers) (n : Nat) : Call → Happening
  | .compile _ => .compiled n w.compiler
  | .execute _ => .executed n w.sandbox
  | .render _ => .rendered n w.renderer

/-- The happening starts nothing, and if it is about the submission it is an answer. -/
structure Spares (w : Answers) (n : Nat) (h : Happening) : Prop where
  calm : h.isStart = false
  answers : h.seq? = some n → ∃ k, h = w.answer n k

/-- The code to execute, where the compiler finds nothing. -/
def code? (w : Answers) : Option String :=
  match w.compiler with
  | .ok c => if c.hasDiagnostics then none else some c.emitted
  | .error _ => none

/-- The default export, where the execution leaves one. -/
def scene? (w : Answers) : Option Json :=
  match w.sandbox with
  | .ok (.ok exports) => exports.default?
  | _ => none

/-- The notes for debugging, where there is a default export. -/
def debug? (w : Answers) : Option DebugInfo := do
  return ⟨← w.code?, some (← w.scene?)⟩

/-- What a submission leaves that started on a snapshot and was answered: the snapshot
afterwards, its calls, and how it ended. -/
inductive Leaves (w : Answers) (x : Snapshot) (n : Nat) (source : String) :
    Snapshot → List Call → Except SubmitError Report → Prop
  | uncompiled {e : CompileError} (ha : w.compiler = .error e) :
      Leaves w x n source (x.cleared source) [.compile source] (.error (.compile e))
  | diagnosed {c : Compilation} (ha : w.compiler = .ok c) (hc : c.hasDiagnostics = true) :
      Leaves w x n source
        { x.cleared source with
          output := .err ⟨classifyAll source c.grammar, classifyAll source c.semantic, []⟩ }
        [.compile source] (.ok ⟨n, .blocked .diagnostics, true⟩)
  | faulted {code : String} {r : ErrorRecord} (hc : w.code? = some code)
      (hb : w.sandbox = .ok (.error r)) :
      Leaves w x n source { x.cleared source with output := .err ⟨[], [], [r]⟩ }
        [.compile source, .execute code] (.ok ⟨n, .blocked .runtime, true⟩)
  | timedOut {code : String} {ms : Nat} (hc : w.code? = some code)
      (hb : w.sandbox = .error (.timeout ms)) :
      Leaves w x n source
        { x.cleared source with
          output := .err ⟨[], [], [.unpositioned (SandboxError.timeout ms).message]⟩ }
        [.compile source, .execute code] (.ok ⟨n, .blocked .runtime, true⟩)
  | unclassified {code m : String} (hc : w.code? = some code)
      (hb : w.sandbox = .error (.unclassified m)) :
      Leaves w x n source (x.cleared source)
        [.compile source, .execute code] (.ok ⟨n, .blocked .runtime, false⟩)
  | broken {code : String} {e : SandboxError} (hc : w.code? = some code)
      (hb : w.sandbox = .error e) (he : e.isInfrastructure = true) :
      Leaves w x n source (x.cleared source)
        [.compile source, .execute code] (.error (.sandbox e))
  | valueless {code : String} {exports : Exports} (hc : w.code? = some code)
      (hb : w.sandbox = .ok (.ok exports)) (hx : exports.default? = none) :
      Leaves w x n source { x.cleared source with output := .err ⟨[], [], [missingDefault]⟩ }
        [.compile source, .execute code] (.ok ⟨n, .blocked .runtime, true⟩)
  | rejected {code : String} {scene : Json} {r : ErrorRecord} (hc : w.code? = some code)
      (hx : w.scene? = some scene) (hd : w.renderer = .error (.rejected r)) :
      Leaves w x n source
        { x.cleared source with
          output := .err ⟨[], [], [r]⟩, debug := some ⟨code, some scene⟩ }
        [.compile source, .execute code, .render ⟨source, scene⟩]
        (.ok ⟨n, .blocked .render, true⟩)
  | mismatched {code body : String} {scene : Json} {f : BodyFault} (hc : w.code? = some code)
      (hx : w.scene? = some scene) (hd : w.renderer = .error (.mismatch f body)) :
      Leaves w x n source { x.cleared source with debug := some ⟨code, some scene⟩ }
        [.compile source, .execute code, .render ⟨source, scene⟩] (.error (.mismatch f))
  | ready {code : String} {scene : Json} {r : RenderResult} (hc : w.code? = some code)
      (hx : w.scene? = some scene) (hd : w.renderer = .ok r) :
      Leaves w x n source
        { x.cleared source with
          output := .ok r.figures, prevOk := r.figures, debug := some ⟨code, some scene⟩
          perf := if r.perf.isNull then none else some r.perf }
        [.compile source, .execute code, .render ⟨source, scene⟩] (.ok ⟨n, .ready, true⟩)

variable {w : Answers} {x y : Snapshot} {n : Nat} {source : String} {s s' : Submission}
  {own : List Call} {h : Happening} {ts : List Transition} {call : Option Call}
  {r : Except SubmitError Report}

/-- Every row leaves the source that was submitted. -/
theorem Leaves.source_eq (hl : w.Leaves x n source y own r) : y.source = source := by
  cases hl <;> rfl

/-- Only a submission that comes to figures changes the last success and its timing. -/
theorem Leaves.last_success (hl : w.Leaves x n source y own r)
    (hr : r ≠ .ok ⟨n, .ready, true⟩) : y.prevOk = x.prevOk ∧ y.perf = x.perf := by
  cases hl with
  | ready => exact (hr rfl).elim
  | _ => exact ⟨rfl, rfl⟩

/-- The notes for debugging change with a default export and only then. -/
theorem Leaves.debug_eq (hl : w.Leaves x n source y own r) :
    y.debug = w.debug?.or x.debug := by
  cases hl with
  | uncompiled ha => simp [debug?, code?, ha, Snapshot.cleared]
  | diagnosed ha hc => simp [debug?, code?, ha, hc, Snapshot.cleared]
  | faulted _ hb => simp [debug?, scene?, hb, Snapshot.cleared]
  | timedOut _ hb => simp [debug?, scene?, hb, Snapshot.cleared]
  | unclassified _ hb => simp [debug?, scene?, hb, Snapshot.cleared]
  | broken _ hb => simp [debug?, scene?, hb, Snapshot.cleared]
  | valueless _ hb hx => simp [debug?, scene?, hb, hx, Snapshot.cleared]
  | rejected hc hx => simp [debug?, hc, hx]
  | mismatched hc hx => simp [debug?, hc, hx]
  | ready hc hx => simp [debug?, hc, hx]

/-- Where a submission stands that started on a snapshot, with the snapshot and its calls
up to then. -/
inductive Course (w : Answers) (x : Snapshot) (n : Nat) (source : String) :
    Submission → Snapshot → List Call → Prop
  | compiling :
      Course w x n source (Pipeline.started n source) (x.cleared source) [.compile source]
  | executing {code : String} (hc : w.code? = some code) :
      Course w x n source ⟨n, source, .executing, false, .executing code⟩ (x.cleared source)
        [.compile source, .execute code]
  | rendering {code : String} {scene : Json} (hc : w.code? = some code)
      (hx : w.scene? = some scene) :
      Course w x n source ⟨n, source, .rendering, true, .rendering ⟨source, scene⟩⟩
        { x.cleared source with debug := some ⟨code, some scene⟩ }
        [.compile source, .execute code, .render ⟨source, scene⟩]
  | ended {s : Submission} {y : Snapshot} {own : List Call} {r : Except SubmitError Report}
      (hp : s.phase = .ended r) (hl : w.Leaves x n source y own r) :
      Course w x n source s y own

/-- An answer of the compiler that a submission gets is the one that is given. -/
theorem Spares.compiler_eq {a : Except CompileError Compilation}
    (hw : w.Spares n (.compiled n a)) : w.compiler = a := by
  obtain ⟨k, hk⟩ := hw.answers rfl
  cases k with
  | compile _ => exact (Happening.compiled.inj hk).2.symm
  | _ => cases hk

theorem Spares.sandbox_eq {a : Except SandboxError Result}
    (hw : w.Spares n (.executed n a)) : w.sandbox = a := by
  obtain ⟨k, hk⟩ := hw.answers rfl
  cases k with
  | execute _ => exact (Happening.executed.inj hk).2.symm
  | _ => cases hk

theorem Spares.renderer_eq {a : Rendered} (hw : w.Spares n (.rendered n a)) :
    w.renderer = a := by
  obtain ⟨k, hk⟩ := hw.answers rfl
  cases k with
  | render _ => exact (Happening.rendered.inj hk).2.symm
  | _ => cases hk

/-- An answer takes a submission on its course to the next place on it. -/
theorem Course.step (hc : w.Course x n source s y own) (hn : s.seq = n) (hw : w.Spares n h)
    (hg : s.Goes false h s' ts call) :
    w.Course x n source s' (ts.foldl Snapshot.apply y) (own ++ call.toList) := by
  cases hc with
  | compiling =>
    cases hg with
    | uncompiled => exact .ended rfl (.uncompiled hw.compiler_eq)
    | diagnosed _ hc => exact .ended rfl (.diagnosed hw.compiler_eq hc)
    | clean _ hc => exact .executing (by simp [code?, hw.compiler_eq, hc])
    | faulted hp | timedOut hp | unclassified hp | broken hp _ | valueless hp _ | exported hp _
    | rendered hp | rejected hp | mismatched hp => cases hp
  | executing hc =>
    cases hg with
    | faulted => exact .ended rfl (.faulted hc hw.sandbox_eq)
    | timedOut => exact .ended rfl (.timedOut hc hw.sandbox_eq)
    | unclassified => exact .ended rfl (.unclassified hc hw.sandbox_eq)
    | broken _ he => exact .ended rfl (.broken hc hw.sandbox_eq he)
    | valueless _ hx => exact .ended rfl (.valueless hc hw.sandbox_eq hx)
    | exported hp hx =>
      obtain rfl := Phase.executing.inj hp
      exact .rendering hc (by simp [scene?, hw.sandbox_eq, hx])
    | uncompiled hp | diagnosed hp _ | clean hp _ | rendered hp | rejected hp
    | mismatched hp => cases hp
  | rendering hc hx =>
    cases hg with
    | rendered => exact .ended rfl (.ready hc hx hw.renderer_eq)
    | rejected => exact .ended rfl (.rejected hc hx hw.renderer_eq)
    | mismatched => exact .ended rfl (.mismatched hc hx hw.renderer_eq)
    | uncompiled hp | diagnosed hp _ | clean hp _ | faulted hp | timedOut hp | unclassified hp
    | broken hp _ | valueless hp _ | exported hp _ => cases hp
  | ended hp =>
    have hwaits := hg.waits
    rw [hp] at hwaits
    cases hwaits

/-- On its course a submission has ended or waits for an answer. -/
theorem Course.exists_awaited (hc : w.Course x n source s y own)
    (hr : s.phase.result? = none) : ∃ k, s.awaited? = some k := by
  cases hc with
  | compiling | executing | rendering => exact ⟨_, rfl⟩
  | ended hp =>
    rw [hp] at hr
    cases hr

/-- A submission that has ended is in its row of the table. -/
theorem Course.leaves (hc : w.Course x n source s y own) (hr : s.phase.result? = some r) :
    w.Leaves x n source y own r := by
  cases hc with
  | compiling | executing | rendering => cases hr
  | ended hp hl =>
    rw [hp] at hr
    exact Option.some.inj hr ▸ hl

/-- The source shown is the submitted one all along. -/
theorem Course.source_eq (hc : w.Course x n source s y own) : y.source = source := by
  cases hc with
  | compiling | executing | rendering => rfl
  | ended _ hl => exact hl.source_eq

end Answers

namespace Submission

variable {s s' : Submission} {stale : Bool} {h : Happening} {ts : List Transition}
  {call : Option Call}

/-- After an answer a submission waits for the call that it has just made. -/
theorem Goes.awaited?_eq (hg : s.Goes stale h s' ts call) : s'.awaited? = call := by
  cases hg <;> rfl

/-- Whatever a submission waits for, it resumes with the answer. -/
theorem exists_resumes {k : Call} (hk : s.awaited? = some k) (w : Answers) (fence : Bool)
    (latest : Nat) : ∃ st, s.Resumes fence latest (w.answer s.seq k) st := by
  cases hp : s.phase with
  | compiling =>
    obtain rfl : Call.compile s.source = k := by simpa [awaited?, hp] using hk
    exact ⟨_, .compiled hp _⟩
  | executing code =>
    obtain rfl : Call.execute code = k := by simpa [awaited?, hp] using hk
    exact ⟨_, .executed hp _⟩
  | rendering request =>
    obtain rfl : Call.render request = k := by simpa [awaited?, hp] using hk
    exact ⟨_, .rendered hp _⟩
  | _ => simp [awaited?, hp] at hk

end Submission

namespace Pipeline

variable {p : Pipeline} {source : String} {w : Answers} {past : List Happening} {h : Happening}

/-- What holds of a submission that nothing overlaps, after what has happened since it
started: it is on its course, and the call it waits for has not been answered. -/
structure Alone (p : Pipeline) (source : String) (w : Answers) (past : List Happening) :
    Prop where
  sound : ((p.submit source).run past).Sound
  quiet : ((p.submit source).run past).Quiet
  latest_eq : ((p.submit source).run past).latest = p.latest + 1
  course : ∃ s own, ((p.submit source).run past).submission? (p.latest + 1) = some s ∧
    ((p.submit source).run past).calls = p.calls ++ own.map (p.latest + 1, ·) ∧
    w.Course p.store.current (p.latest + 1) source s
      ((p.submit source).run past).store.current own
  unanswered : ∀ s k, ((p.submit source).run past).submission? (p.latest + 1) = some s →
    s.awaited? = some k → ∃ before after, past = before ++ after ∧
      (p.latest + 1, k) ∈ ((p.submit source).run before).calls ∧
      w.answer (p.latest + 1) k ∉ after

/-- A submission that starts while no other one waits is alone. -/
theorem Alone.start (hp : p.Sound)
    (hover : ∀ m s, p.submission? m = some s → s.phase.waits = false) (source : String)
    (w : Answers) : p.Alone source w [] where
  sound := hp.submit source
  quiet := .inr fun m s hs hm => by
    have hs' : (p.submit source).submission? m = some s := hs
    have hm' : m ≠ p.latest + 1 := latest_submit p source ▸ hm
    rw [submission?_submit, if_neg hm'] at hs'
    exact hover m s hs'
  latest_eq := latest_submit p source
  course := by
    refine ⟨started (p.latest + 1) source, [.compile source], ?_, rfl, ?_⟩
    · exact (submission?_submit p source _).trans (if_pos rfl)
    · have hcleared : (p.submit source).store.current = p.store.current.cleared source :=
        snapshot_submit p source
      exact hcleared ▸ .compiling
  unanswered s k hs hk := by
    have hs' : (p.submit source).submission? (p.latest + 1) = some s := hs
    rw [submission?_submit, if_pos rfl] at hs'
    obtain rfl := Option.some.inj hs'
    obtain rfl := Option.some.inj hk
    exact ⟨[], [], rfl, by simp [run, calls_submit, started], by simp⟩

/-- An answer that the submission waits for makes it go on. -/
theorem Alone.ne_answer {s : Submission} {k : Call} (ha : p.Alone source w past)
    (hs : ((p.submit source).run past).submission? (p.latest + 1) = some s)
    (hk : s.awaited? = some k)
    (hkept : (((p.submit source).run past).step h).submission? (p.latest + 1) = some s) :
    h ≠ w.answer (p.latest + 1) k := by
  rintro rfl
  have hseq := ha.sound.numbered _ _ hs
  rw [← hseq] at hs hkept
  obtain ⟨st, hr⟩ := Submission.exists_resumes hk w ((p.submit source).run past).fence
    ((p.submit source).run past).latest
  exact submission?_step_ne ha.sound hs hr hkept

/-- A step that no other submission takes part in stays on the course. -/
theorem Alone.course_step (ha : p.Alone source w past) (hh : w.Spares (p.latest + 1) h) :
    ∃ s own, (((p.submit source).run past).step h).submission? (p.latest + 1) = some s ∧
      (((p.submit source).run past).step h).calls = p.calls ++ own.map (p.latest + 1, ·) ∧
      w.Course p.store.current (p.latest + 1) source s
        (((p.submit source).run past).step h).store.current own := by
  obtain ⟨s, own, hs, hcalls, hcourse⟩ := ha.course
  have hadv := newest_step ha.sound ha.quiet (ha.latest_eq ▸ hs) hh.calm
  cases hadv with
  | kept hs' hc hk =>
    rw [ha.latest_eq] at hs'
    exact ⟨s, own, hs', hk.trans hcalls, hc ▸ hcourse⟩
  | dropped hab _ _ _ _ =>
    obtain ⟨k, hk⟩ := hh.answers (by rw [hab, ha.latest_eq]; rfl)
    cases k <;> cases hab.symm.trans hk
  | @went s' ts call hg hs' hc hk =>
    rw [ha.latest_eq] at hs' hk
    have hseq := ha.sound.numbered _ _ hs
    refine ⟨s', own ++ call.toList, hs', ?_, hc ▸ hcourse.step hseq hh hg⟩
    rw [hk, hcalls]
    cases call <;> simp

/-- After such a step the call that is waited for has not been answered since it was made. -/
theorem Alone.unanswered_step {s : Submission} {k : Call} (ha : p.Alone source w past)
    (hh : w.Spares (p.latest + 1) h)
    (hs : (((p.submit source).run past).step h).submission? (p.latest + 1) = some s)
    (hk : s.awaited? = some k) : ∃ before after, past ++ [h] = before ++ after ∧
      (p.latest + 1, k) ∈ ((p.submit source).run before).calls ∧
      w.answer (p.latest + 1) k ∉ after := by
  obtain ⟨s₀, _, hs₀, -⟩ := ha.course
  have hadv := newest_step ha.sound ha.quiet (ha.latest_eq ▸ hs₀) hh.calm
  cases hadv with
  | kept hs' _ _ =>
    rw [ha.latest_eq] at hs'
    obtain rfl := Option.some.inj (hs'.symm.trans hs)
    obtain ⟨before, after, rfl, hmem, hafter⟩ := ha.unanswered _ k hs₀ hk
    have hne := ha.ne_answer hs₀ hk hs'
    exact ⟨before, after ++ [h], by simp, hmem, by simp [hafter, Ne.symm hne]⟩
  | dropped _ _ hs' _ _ =>
    rw [ha.latest_eq] at hs'
    obtain rfl := Option.some.inj (hs'.symm.trans hs)
    cases hk
  | went hg hs' _ hcalls =>
    rw [ha.latest_eq] at hs' hcalls
    obtain rfl := Option.some.inj (hs'.symm.trans hs)
    rw [hg.awaited?_eq] at hk
    refine ⟨past ++ [h], [], by simp, ?_, by simp⟩
    have hrun : (p.submit source).run (past ++ [h]) = ((p.submit source).run past).step h :=
      run_append _ _ _
    rw [hrun, hcalls, hk]
    simp

/-- So a submission is still alone after it. -/
theorem Alone.step (ha : p.Alone source w past) (hh : w.Spares (p.latest + 1) h) :
    p.Alone source w (past ++ [h]) := by
  have hrun : (p.submit source).run (past ++ [h]) = ((p.submit source).run past).step h :=
    run_append _ _ _
  have hsteps := steps_step ha.sound h
  constructor <;> rw [hrun]
  · exact sound_step ha.sound h
  · exact hsteps.quiet ha.sound ha.quiet hh.calm
  · exact (hsteps.latest_eq hh.calm).trans ha.latest_eq
  · exact ha.course_step hh
  · exact fun s k hs hk => ha.unanswered_step hh hs hk

/-- It is alone as long as no other one takes part. -/
theorem Alone.run {hs : List Happening} (ha : p.Alone source w past)
    (hhs : ∀ h ∈ hs, w.Spares (p.latest + 1) h) : p.Alone source w (past ++ hs) := by
  induction hs generalizing past with
  | nil => simpa using ha
  | cons h hs ih =>
    have := ih (ha.step (hhs h (by simp))) fun k hk => hhs k (by simp [hk])
    simpa using this

/-- What one submission leaves. Let no earlier submission be waiting when it starts, and
let nothing overlap or drop it. Then the source shown is its own, and however the services
answer, it has ended as soon as every call it made has been answered, and leaves its row
of the table. The last success and its timing stay unless it comes to figures, and the
notes for debugging stay unless the execution left a default export. -/
theorem alone (fence : Bool) (store : Store) (earlier : List Happening) (source : String)
    (w : Answers) (hs : List Happening)
    (hover : ∀ m s, ((new fence store).run earlier).submission? m = some s →
      s.phase.waits = false)
    (halone : ∀ h ∈ hs, w.Spares (((new fence store).run earlier).latest + 1) h) :
    let p := (new fence store).run earlier
    let n := p.latest + 1
    let q := (p.submit source).run hs
    q.store.current.source = source ∧
    (q.result? n = none → ∃ k before after, hs = before ++ after ∧
      (n, k) ∈ ((p.submit source).run before).calls ∧ w.answer n k ∉ after) ∧
    ∃ own, q.calls = p.calls ++ own.map (n, ·) ∧
      ∀ r, q.result? n = some r →
        w.Leaves p.store.current n source q.store.current own r ∧
        (r ≠ .ok ⟨n, .ready, true⟩ → q.store.current.prevOk = p.store.current.prevOk ∧
          q.store.current.perf = p.store.current.perf) ∧
        q.store.current.debug = w.debug?.or p.store.current.debug := by
  intro p n q
  have hp : p.Sound := sound_run (sound_new fence store) earlier
  have ha : p.Alone source w hs := (Alone.start hp hover source w).run halone
  obtain ⟨s, own, hsub, hcalls, hcourse⟩ := ha.course
  have hres : q.result? n = s.phase.result? := result?_eq hsub
  refine ⟨hcourse.source_eq, fun h0 => ?_, own, hcalls, fun r hr => ?_⟩
  · obtain ⟨k, hk⟩ := hcourse.exists_awaited (hres ▸ h0)
    exact ⟨k, ha.unanswered s k hsub hk⟩
  · have hl := hcourse.leaves (hres ▸ hr)
    exact ⟨hl, hl.last_success, hl.debug_eq⟩

/-- The script `1` has no value to show: behind a submission that came to a figure its error is
shown, and the figure and its timing stay. -/
theorem alone_without_value :
    let dot : RenderedFigure := ⟨"dot", 0, 0, 10, 10⟩
    let earlier : List Happening := [.submitted "2", .compiled 1 (.ok (.clean "2")),
      .executed 1 (.ok (.ok (.ofList [("default", .nat 2)]))), .rendered 1 (.ok ⟨[dot], .nat 5⟩)]
    let p := (new true (.ofInitial .default 4)).run earlier
    let q := (p.submit "1").run
      [.compiled 2 (.ok (.clean "1")), .ticked, .executed 2 (.ok (.ok .empty))]
    p.result? 1 = some (.ok ⟨1, .ready, true⟩) ∧
      q.result? 2 = some (.ok ⟨2, .blocked .runtime, true⟩) ∧ q.store.current.source = "1" ∧
      q.store.current.prevOk = [dot] ∧ q.store.current.perf = some (.nat 5) := by
  intro dot earlier p q
  have hr : q.result? 2 = some (.ok ⟨2, .blocked .runtime, true⟩) := rfl
  have hover : ∀ m s, p.submission? m = some s → s.phase.waits = false := by
    intro m s hs
    have hm : m = 1 := Nat.le_antisymm (le_latest_of_submission? hs) (pos_of_submission? hs)
    subst hm
    obtain rfl := Option.some.inj hs
    rfl
  obtain ⟨hsource, _, own, _, hl⟩ := alone true (.ofInitial .default 4) earlier "1"
    ⟨.ok (.clean "1"), .ok (.ok .empty), .error (.rejected missingDefault)⟩
    [.compiled 2 (.ok (.clean "1")), .ticked, .executed 2 (.ok (.ok .empty))] hover
    (by
      intro h hh
      simp only [List.mem_cons, List.not_mem_nil, or_false] at hh
      rcases hh with rfl | rfl | rfl
      · exact ⟨rfl, fun _ => ⟨.compile "1", rfl⟩⟩
      · exact ⟨rfl, fun h => by cases h⟩
      · exact ⟨rfl, fun _ => ⟨.execute "1", rfl⟩⟩)
  have hlast := (hl _ hr).2.1 (by simp)
  exact ⟨rfl, hr, hsource, hlast.1, hlast.2⟩

end Pipeline

end LiveScene.Live
