import LiveScene.Command.Check
import LiveScene.Command.Run
import LiveScene.Proofs.Live.Services

/-!
# A check and a run of one script

A check and a run ask the same compiler and the same sandbox. `Concurs` is how
their ends belong together, one row for each way a check can end, and
`concurs_runWith` that they do: a run leaves its row of the table of what a
submission leaves (`Live.Answers.Leaves`), and each row of that table is one of
`Concurs` (`concurs_of_leaves`).

`check_foretells_run` reads it as what a check says of a run.
-/

namespace LiveScene

open Diagnostics Sandbox Compiler Live Scene

namespace Live

/-- The request of a call of the renderer. -/
def Call.request? : Call → Option RenderRequest
  | render request => some request
  | compile _ | execute _ => none

/-- The requests to the renderer are among the calls of the only submission. -/
theorem Pipeline.renderRequests_eq {p : Pipeline} {own : List Call} {n : Nat}
    (hp : p.calls = own.map (n, ·)) : p.renderRequests = own.filterMap Call.request? := by
  rw [renderRequests, hp, List.filterMap_map]
  congr 1
  funext k
  cases k <;> rfl

end Live

namespace Command

namespace RunTrace

/-- The stage that a run ends in, if it ends with a report. -/
def stage? (t : RunTrace) : Option Stage := t.output.toOption.map (·.report.stage)

/-- The output shown at the end of a run that ends with a report. -/
def shown? (t : RunTrace) : Option Live.Output := t.output.toOption.map (·.state.output)

end RunTrace

/-- How the end of a check and a run of one source belong together. -/
inductive Concurs (source : String) : Except CheckError CheckOutput → RunTrace → Prop
  | uncompiled {e : CompileError} {t : RunTrace} (hs : t.stage? = none) (hr : t.requests = []) :
      Concurs source (.error (.compile e)) t
  | diagnosed {b : ErrorBundle} {t : RunTrace} (hs : t.stage? = some (.blocked .diagnostics))
      (ho : t.shown? = some (.err b)) (hr : t.requests = []) :
      Concurs source (.ok (.diagnostics b)) t
  | faulted {r : ErrorRecord} {t : RunTrace} (hs : t.stage? = some (.blocked .runtime))
      (ho : t.shown? = some (.err ⟨[], [], [r]⟩)) (hr : t.requests = []) :
      Concurs source (.ok (.executed (.error r))) t
  | broken {e : SandboxError} {t : RunTrace} (hs : t.stage? ≠ some (.blocked .diagnostics))
      (hr : t.requests = []) : Concurs source (.error (.sandbox e)) t
  | valueless {x : Exports} {t : RunTrace} (hx : x.default? = none)
      (hs : t.stage? = some (.blocked .runtime)) (hr : t.requests = []) :
      Concurs source (.ok (.executed (.ok x))) t
  | exported {x : Exports} {scene : Json} {t : RunTrace} (hx : x.default? = some scene)
      (hs : t.stage? ≠ some (.blocked .diagnostics)) (hr : t.requests = [⟨source, scene⟩]) :
      Concurs source (.ok (.executed (.ok x))) t

variable {source : String} {execute : String → Answered (Except SandboxError Result)}

/-- Where the compiler finds nothing, a check ends as the sandbox answers. -/
theorem checkWith_of_code? {w : Answers} {code : String} (hc : w.code? = some code)
    (hb : w.sandbox = (execute code).value) (source : String) :
    (checkWith w.compiler execute source).output =
      match w.sandbox with
      | .error e => .error (.sandbox e)
      | .ok r => .ok (.executed r) := by
  unfold Answers.code? at hc
  split at hc
  · rename_i c hcompiler
    split_ifs at hc with hd
    obtain rfl := Option.some.inj hc
    simp only [checkWith, hcompiler, hd, hb]
    rfl
  · cases hc

/-- A run that tells what its submission leaves concurs with the check of the same answers. -/
theorem concurs_of_leaves {w : Answers} {x y : Snapshot} {own : List Call}
    {r : Except SubmitError Report} {t : RunTrace} (hl : w.Leaves x 1 source y own r)
    (hsandbox : ∀ code, w.code? = some code → w.sandbox = (execute code).value)
    (hs : t.stage? = r.toOption.map Report.stage)
    (ho : t.shown? = r.toOption.map fun _ => y.output)
    (hr : t.requests = own.filterMap Call.request?) :
    Concurs source (checkWith w.compiler execute source).output t := by
  have hcheck {code : String} (hc : w.code? = some code) :=
    checkWith_of_code? hc (hsandbox code hc) source
  cases hl with
  | uncompiled ha =>
    simp only [checkWith, ha]
    exact .uncompiled hs hr
  | diagnosed ha hd =>
    simp only [checkWith, ha, hd, if_true]
    exact .diagnosed hs ho hr
  | faulted hc hb =>
    rw [hcheck hc, hb]
    exact .faulted hs ho hr
  | timedOut hc hb | unclassified hc hb | broken hc hb _ =>
    rw [hcheck hc, hb]
    exact .broken (by simp [hs, Except.toOption]) hr
  | valueless hc hb hx =>
    rw [hcheck hc, hb]
    exact .valueless hx hs hr
  | rejected hc hx _ | mismatched hc hx _ | ready hc hx _ =>
    obtain ⟨exports, hb, hdefault⟩ := Answers.exists_exports hx
    rw [hcheck hc, hb]
    exact .exported hdefault (by simp [hs, Except.toOption]) hr

/-- What a run tells is the report of its submission, what is shown then, and what was
requested. -/
theorem ofPipeline_of_result? {p : Pipeline} {r : Except SubmitError Report}
    (hr : p.result? p.latest = some r) :
    (RunTrace.ofPipeline p).stage? = r.toOption.map Report.stage ∧
      (RunTrace.ofPipeline p).shown? = r.toOption.map (fun _ => p.store.current.output) ∧
      (RunTrace.ofPipeline p).requests = p.renderRequests := by
  cases r <;> simp [RunTrace.ofPipeline, hr, RunTrace.stage?, RunTrace.shown?, Except.toOption]

/-- A run concurs with a check that gets the same answers of the compiler and the sandbox. -/
theorem concurs_runWith {s : Settings} {compiled : Except CompileError Compilation}
    (hs : s.fault? = none)
    (hcompiled : s.compiler.target = scriptTarget ∨ ∃ e, compiled = .error e)
    (network : Posted → Reply) :
    Concurs source (checkWith compiled execute source).output
      ((runWith s compiled execute source).through network) := by
  by_cases htarget : s.compiler.target = scriptTarget
  · obtain ⟨w, rfl, hsandbox, hrenderer⟩ := Answers.exists_given compiled execute
      fun scene => ((ask s.render ⟨source, scene⟩).through network).outcome
    have hnew : (Pipeline.ofSettings s).Sound := Pipeline.sound_new _ _
    obtain ⟨own, r, hr, hcalls, hl⟩ := Pipeline.leaves_asking hnew
      (by simp [Pipeline.ofSettings, Pipeline.new, Pipeline.submission?]) rfl hsandbox hrenderer
    obtain ⟨hstage, hshown, hrequests⟩ := ofPipeline_of_result? hr
    have hrun : runWith s w.compiler execute source =
        (((Pipeline.ofSettings s).consultWith w.compiler execute source).asking s.render).map
          .ofPipeline := by
      simp [runWith, pipelineFault?, hs, htarget]
    rw [hrun, Asking.through_map]
    exact concurs_of_leaves hl hsandbox hstage hshown
      (hrequests.trans (Pipeline.renderRequests_eq hcalls))
  · obtain ⟨e, rfl⟩ := hcompiled.resolve_left htarget
    have hrun : runWith s (.error e) execute source =
        .done ⟨.error (.invalid (.target (.unsupportedTarget s.compiler.target))), [], []⟩ := by
      simp [runWith, pipelineFault?, hs, htarget]
    rw [hrun]
    exact .uncompiled rfl rfl

/-- A run concurs with a check of the same source under the same settings: the compiler of both
refuses every target but one. -/
theorem concurs_run {s : Settings} (hs : s.fault? = none) (source : String)
    (network : Posted → Reply) :
    Concurs source (check s source).output ((run s source).through network) := by
  refine concurs_runWith hs ?_ network
  by_cases htarget : s.compiler.target = scriptTarget
  · exact .inl htarget
  · exact .inr ⟨_, if_neg htarget⟩

/-- What a check says of a run of the same source under settings that can be worked with. Let
both get the same answers of the compiler, which refuses every target but one, and of the
sandbox. The run ends blocked on diagnostics if and only if the check tells diagnostics, and
shows them at its end. Where the check tells the error of the script, the run ends blocked on
it and shows that record and no other. The run asks the renderer if and only if the check
tells exports with a default export, and asks for that. Where the sandbox ends the check, the
run does not ask the renderer. -/
theorem check_foretells_run (s : Settings) (compiled : Except CompileError Compilation)
    (execute : String → Answered (Except SandboxError Result)) (source : String)
    (network : Posted → Reply) (hs : s.fault? = none)
    (hcompiled : s.compiler.target = scriptTarget ∨ ∃ e, compiled = .error e) :
    let c := (checkWith compiled execute source).output
    let t := (runWith s compiled execute source).through network
    ((∃ b, c = .ok (.diagnostics b)) ↔ t.stage? = some (.blocked .diagnostics)) ∧
      (∀ b, c = .ok (.diagnostics b) → t.shown? = some (.err b)) ∧
      (∀ message line col, c = .ok (.executed (.error ⟨message, line, col⟩)) →
        t.stage? = some (.blocked .runtime) ∧
          t.shown? = some (.err ⟨[], [], [⟨message, line, col⟩]⟩)) ∧
      (t.requests ≠ [] ↔
        ∃ exports scene, c = .ok (.executed (.ok exports)) ∧ exports.default? = some scene) ∧
      (∀ exports scene, c = .ok (.executed (.ok exports)) → exports.default? = some scene →
        t.requests = [⟨source, scene⟩]) ∧
      ∀ e, c = .error (.sandbox e) → t.requests = [] := by
  intro c t
  have hconcurs : Concurs source c t := concurs_runWith hs hcompiled network
  clear_value c t
  cases hconcurs with
  | uncompiled hstage hr => simp [hstage, hr]
  | diagnosed hstage ho hr => simp [hstage, ho, hr]
  | faulted hstage ho hr =>
    refine ⟨by simp [hstage], nofun, ?_, by simp [hr], nofun, nofun⟩
    rintro message line col hc
    cases hc
    exact ⟨hstage, ho⟩
  | broken hstage hr => simp [hstage, hr]
  | valueless hx hstage hr =>
    refine ⟨by simp [hstage], nofun, nofun, by simp [hr, hx], fun exports scene hc hdefault => ?_,
      nofun⟩
    cases hc
    cases hx.symm.trans hdefault
  | exported hx hstage hr =>
    refine ⟨by simp [hstage], nofun, nofun, by simp [hr, hx], fun exports scene hc hdefault => ?_,
      nofun⟩
    cases hc
    rw [hr, Option.some.inj (hx.symm.trans hdefault)]

/-- A check that tells a default export, and a run that asks the renderer for it. -/
theorem check_foretells_run_default :
    let execute : String → Answered (Except SandboxError Result) :=
      fun _ => .atOnce (.ok (.ok (.ofList [("default", .nat 1)])))
    let t := (runWith .default (.ok (.clean "1")) execute "1").through fun _ => .silent
    (checkWith (.ok (.clean "1")) execute "1").output =
        .ok (.executed (.ok (.ofList [("default", .nat 1)]))) ∧
      t.requests = [⟨"1", .nat 1⟩] := by
  intro execute t
  have hcheck : (checkWith (.ok (.clean "1")) execute "1").output =
      .ok (.executed (.ok (.ofList [("default", .nat 1)]))) := rfl
  obtain ⟨-, -, -, -, hasked, -⟩ := check_foretells_run .default (.ok (.clean "1")) execute "1"
    (fun _ => .silent) rfl (.inl rfl)
  exact ⟨hcheck, hasked _ _ hcheck rfl⟩

end Command

end LiveScene
