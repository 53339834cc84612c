import LiveScene.Live.Services
import LiveScene.Proofs.Live.Order
import LiveScene.Proofs.Live.Outcome

/-!
# A submission among its services

`Pipeline.consultWith` and `Pipeline.asking` give a submission the answers it
waits for, one after another, and the notes of the services between them. On
the way it is on its course (`Pipeline.Reaches`): after the compiler and the
sandbox it has ended or waits for the renderer (`Pipeline.reaches_consultWith`),
and after the renderer it has ended.

`Pipeline.leaves_asking` is that it then leaves its row of the table of what a
submission leaves, with nothing of what the services note.
-/

namespace LiveScene.Live

open Diagnostics Scene Sandbox Compiler

/-- What is made of an outcome does not matter to the network. -/
theorem Asking.through_map {α β : Type} (f : α → β) (a : Asking α)
    (network : Posted → Reply) : (a.map f).through network = f (a.through network) := by
  cases a <;> rfl

namespace Happening

variable {n m : Nat} {source : String} {k : Call}

/-- An answer of the compiler only prompts the execution of what it emitted without findings. -/
theorem Prompts.of_compiled {a : Except CompileError Compilation}
    (hk : (compiled m a).Prompts n source k) :
    ∃ c, a = .ok c ∧ c.hasDiagnostics = false ∧ k = .execute c.emitted := by
  cases hk with
  | execute hc => exact ⟨_, rfl, hc, rfl⟩

/-- An answer of the sandbox only prompts a request of the renderer. -/
theorem Prompts.of_executed {a : Except SandboxError Result}
    (hk : (executed m a).Prompts n source k) : ∃ request, k = .render request := by
  cases hk
  exact ⟨_, rfl⟩

/-- An answer of the renderer prompts nothing. -/
theorem not_prompts_rendered {a : Rendered} : ¬ (rendered m a).Prompts n source k := nofun

end Happening

namespace Submission

variable {s : Submission}

theorem phase_of_awaited_execute {code : String} (hk : s.awaited? = some (.execute code)) :
    s.phase = .executing code := by
  unfold awaited? at hk
  split at hk
  all_goals cases hk
  assumption

end Submission

namespace Answers

/-- A scene comes from exports with a default export. -/
theorem exists_exports {w : Answers} {scene : Json} (hx : w.scene? = some scene) :
    ∃ x, w.sandbox = .ok (.ok x) ∧ x.default? = some scene := by
  unfold Answers.scene? at hx
  split at hx
  · rename_i x hb
    exact ⟨x, hb, hx⟩
  · cases hx

/-- Services answer a submission in one way. -/
theorem exists_given (compiled : Except CompileError Compilation)
    (execute : String → Answered (Except SandboxError Result)) (render : Json → Rendered) :
    ∃ w : Answers, w.compiler = compiled ∧
      (∀ code, w.code? = some code → w.sandbox = (execute code).value) ∧
      ∀ scene, w.scene? = some scene → w.renderer = render scene := by
  let sandbox := (execute (compiled.toOption.elim "" Compilation.emitted)).value
  let scene? := Answers.scene? ⟨compiled, sandbox, render .null⟩
  refine ⟨⟨compiled, sandbox, render (scene?.getD .null)⟩, rfl, fun code hc => ?_,
    fun scene hx => ?_⟩
  · unfold Answers.code? at hc
    split at hc
    · rename_i c hcompiled
      obtain rfl : compiled = .ok c := hcompiled
      split_ifs at hc
      rw [← Option.some.inj hc]
      rfl
    · cases hc
  · have hscene : scene? = some scene := hx
    rw [hscene]
    rfl

/-- A submission that waits for the renderer has asked for its source and the scene. -/
theorem Course.exists_scene {w : Answers} {x y : Snapshot} {n : Nat} {source : String}
    {s : Submission} {own : List Call} {request : RenderRequest}
    (hc : w.Course x n source s y own) (hk : s.awaited? = some (.render request)) :
    ∃ scene, request = ⟨source, scene⟩ ∧ w.scene? = some scene := by
  cases hc with
  | compiling | executing => cases hk
  | rendering _ hx => exact ⟨_, (Call.render.inj (Option.some.inj hk)).symm, hx⟩
  | ended hp => simp [Submission.awaited?, hp] at hk

end Answers

namespace Pipeline

variable {p q : Pipeline} {source : String} {w : Answers} {s : Submission} {k : Call}

/-- A pipeline in which the submission of a source has reached a place on its course. -/
structure Reaches (p : Pipeline) (source : String) (w : Answers) (q : Pipeline)
    (s : Submission) : Prop where
  way : ∃ past, q = (p.submit source).run past ∧ p.Alone source w past
  here : q.submission? (p.latest + 1) = some s

theorem Reaches.latest_eq (hq : p.Reaches source w q s) : q.latest = p.latest + 1 := by
  obtain ⟨past, rfl, ha⟩ := hq.way
  exact ha.latest_eq

/-- A pipeline that is reached is on the course of the submission. -/
theorem Reaches.course (hq : p.Reaches source w q s) :
    ∃ own, q.calls = p.calls ++ own.map (p.latest + 1, ·) ∧
      w.Course p.store.current (p.latest + 1) source s q.store.current own := by
  obtain ⟨⟨past, rfl, ha⟩, hs⟩ := hq
  obtain ⟨_, own, hs', hcalls, hcourse⟩ := ha.course
  exact ⟨own, hcalls, Option.some.inj (hs'.symm.trans hs) ▸ hcourse⟩

/-- The start of a submission reaches the call of the compiler. -/
theorem reaches_submit (hp : p.Sound)
    (hover : ∀ m s, p.submission? m = some s → s.phase.waits = false) (source : String)
    (w : Answers) : p.Reaches source w (p.submit source) (started (p.latest + 1) source) where
  way := ⟨[], rfl, .start hp hover source w⟩
  here := (submission?_submit p source _).trans (if_pos rfl)

/-- What a service notes leaves a submission where it is. -/
theorem Reaches.noted (hq : p.Reaches source w q s) (e : Entry) :
    p.Reaches source w (q.step (.noted e)) s where
  way := by
    obtain ⟨past, rfl, ha⟩ := hq.way
    exact ⟨past ++ [.noted e], (run_snoc _ _ _).symm, ha.step ⟨rfl, nofun⟩⟩
  here := hq.here

/-- Notes of a service change nothing about what is reached. -/
theorem Reaches.run_noted (hq : p.Reaches source w q s) (es : List Entry) :
    p.Reaches source w (q.run (es.map .noted)) s := by
  induction es generalizing q with
  | nil => exact hq
  | cons e es ih => exact ih (hq.noted e)

/-- An answer that a submission waits for takes it on. -/
theorem Reaches.answered (hq : p.Reaches source w q s) (hk : s.awaited? = some k) :
    ∃ s' ts call, p.Reaches source w (q.step (w.answer (p.latest + 1) k)) s' ∧
      s.Goes false (w.answer (p.latest + 1) k) s' ts call := by
  obtain ⟨⟨past, rfl, ha⟩, hs⟩ := hq
  have hspares : w.Spares (p.latest + 1) (w.answer (p.latest + 1) k) :=
    ⟨by cases k <;> rfl, fun _ => ⟨k, rfl⟩⟩
  have hadv := newest_step ha.sound ha.quiet (ha.latest_eq ▸ hs) hspares.calm
  cases hadv with
  | kept hs' =>
    rw [ha.latest_eq] at hs'
    exact (ha.ne_answer hs hk hs' rfl).elim
  | dropped hab => cases k <;> cases hab
  | went hg hs' =>
    rw [ha.latest_eq] at hs'
    exact ⟨_, _, _, ⟨⟨_, (run_snoc _ _ _).symm, ha.step hspares⟩, hs'⟩, hg⟩

/-- The notes of a service and its answer take a submission on. -/
theorem Reaches.receive (hq : p.Reaches source w q s) (hk : s.awaited? = some k)
    (notes : List Note) :
    ∃ s' ts call, p.Reaches source w
        (q.receive (p.latest + 1) notes (w.answer (p.latest + 1) k)) s' ∧
      s.Goes false (w.answer (p.latest + 1) k) s' ts call := by
  have hnoted := hq.run_noted (notes.map (·.entry (p.latest + 1)))
  rw [List.map_map] at hnoted
  exact hnoted.answered hk

variable {compiled : Except CompileError Compilation}
  {execute : String → Answered (Except SandboxError Result)}

/-- After the answers of the compiler and the sandbox a submission waits for the renderer or
for nothing. -/
theorem reaches_consultWith (hp : p.Sound)
    (hover : ∀ m s, p.submission? m = some s → s.phase.waits = false) (source : String)
    (hcompiler : w.compiler = compiled)
    (hsandbox : ∀ code, w.code? = some code → w.sandbox = (execute code).value) :
    ∃ s, p.Reaches source w (p.consultWith compiled execute source) s ∧
      ∀ k, s.awaited? = some k → ∃ request, k = .render request := by
  subst hcompiler
  obtain ⟨s, ts, call, hq, hg⟩ := (reaches_submit hp hover source w).answered rfl
  simp only [Answers.answer] at hq hg
  -- it waits for the sandbox or for nothing
  have hexecute : ∀ k, s.awaited? = some k →
      ∃ code, k = .execute code ∧ w.code? = some code := fun k hk => by
    rw [hg.awaited?_eq] at hk
    obtain ⟨c, hc, hd, rfl⟩ := (hk ▸ hg).prompts.of_compiled
    exact ⟨_, rfl, by simp [Answers.code?, hc, hd]⟩
  simp only [consultWith, latest_submit]
  rw [hq.here, Option.map_some]
  split
  · rename_i code hphase
    have hk : s.awaited? = some (.execute code) := by
      simp [Submission.awaited?, Option.some.inj hphase]
    obtain ⟨_, hcode, hc⟩ := hexecute _ hk
    obtain rfl := Call.execute.inj hcode
    obtain ⟨s', ts', call', hq', hg'⟩ := hq.receive hk (execute code).notes
    simp only [Answers.answer, hsandbox code hc] at hq' hg'
    refine ⟨s', hq', fun k hk' => ?_⟩
    rw [hg'.awaited?_eq] at hk'
    exact (hk' ▸ hg').prompts.of_executed
  · rename_i hphase
    refine ⟨s, hq, fun k hk => ?_⟩
    obtain ⟨code, rfl, -⟩ := hexecute k hk
    exact (hphase code (congrArg some (Submission.phase_of_awaited_execute hk))).elim

/-- A submission that waits for nothing has left its row of the table. -/
theorem Reaches.leaves (hq : p.Reaches source w q s) (hk : s.awaited? = none) :
    ∃ own r, q.result? q.latest = some r ∧ q.calls = p.calls ++ own.map (p.latest + 1, ·) ∧
      w.Leaves p.store.current (p.latest + 1) source q.store.current own r := by
  obtain ⟨own, hcalls, hcourse⟩ := hq.course
  cases hr : s.phase.result? with
  | none =>
    obtain ⟨k, hk'⟩ := hcourse.exists_awaited hr
    cases hk.symm.trans hk'
  | some r =>
    exact ⟨own, r, by rw [hq.latest_eq, result?_eq hq.here, hr], hcalls, hcourse.leaves hr⟩

/-- The request that a pipeline waits for is that of the submission. -/
theorem Reaches.awaited?_eq_some {request : RenderRequest} (hq : p.Reaches source w q s) :
    q.awaited? = some request ↔ s.awaited? = some (.render request) := by
  rw [Pipeline.awaited?, hq.latest_eq, hq.here]
  simp only [Option.bind_eq_bind, Option.bind_some, Submission.awaited?]
  cases s.phase <;> simp

/-- What a submission leaves that is given the answers of a compiler, a sandbox and the
renderer of settings: its row of the table of what they answer. -/
theorem leaves_asking (hp : p.Sound)
    (hover : ∀ m s, p.submission? m = some s → s.phase.waits = false)
    (hcompiler : w.compiler = compiled)
    (hsandbox : ∀ code, w.code? = some code → w.sandbox = (execute code).value)
    {settings : RenderSettings} {network : Posted → Reply}
    (hrenderer : ∀ scene, w.scene? = some scene →
      w.renderer = ((ask settings ⟨source, scene⟩).through network).outcome) :
    let q := ((p.consultWith compiled execute source).asking settings).through network
    ∃ own r, q.result? q.latest = some r ∧ q.calls = p.calls ++ own.map (p.latest + 1, ·) ∧
      w.Leaves p.store.current (p.latest + 1) source q.store.current own r := by
  intro q
  obtain ⟨s, hq, hrender⟩ := reaches_consultWith hp hover source hcompiler hsandbox
  cases hr : (p.consultWith compiled execute source).awaited? with
  | none =>
    have hq' : q = p.consultWith compiled execute source := by simp [q, asking, hr, Asking.through]
    rw [hq']
    refine hq.leaves (Option.eq_none_iff_forall_ne_some.2 fun k hk => ?_)
    obtain ⟨request, rfl⟩ := hrender k hk
    cases hr.symm.trans (hq.awaited?_eq_some.2 hk)
  | some request =>
    have hk := hq.awaited?_eq_some.1 hr
    obtain ⟨own, -, hcourse⟩ := hq.course
    obtain ⟨scene, rfl, hscene⟩ := hcourse.exists_scene hk
    obtain ⟨s', ts, call, hq', hg⟩ := hq.receive hk
      (if ((ask settings ⟨source, scene⟩).through network).unsent then [⟨true, .unsent⟩] else [])
    simp only [Answers.answer, hrenderer scene hscene] at hq' hg
    have hend : s'.awaited? = none := by
      rw [hg.awaited?_eq, Option.eq_none_iff_forall_ne_some]
      rintro k rfl
      exact Happening.not_prompts_rendered hg.prompts
    have hreceived : q = (p.consultWith compiled execute source).receiveRender
        ((ask settings ⟨source, scene⟩).through network) := by
      simp only [q, asking, hr, Asking.through_map]
    rw [hreceived, receiveRender, hq.latest_eq]
    exact hq'.leaves hend

end Pipeline

end LiveScene.Live
