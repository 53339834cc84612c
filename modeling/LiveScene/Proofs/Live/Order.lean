import LiveScene.Proofs.Live.Fencing
import Mathlib.Data.List.Induction

/-!
# The order of stages and calls

A submission moves from stage to stage as the table allows, however many
others overlap it (`Stage.Path`, `Pipeline.charted_run`), and asks the
services in order: the compiler, then the sandbox, then the renderer, each at
most once. `Happening.Prompts` says which happening makes which call.

`Pipeline.Turns` is what a step can do to the submission of a number. From it
follow what a submission has asked by now and how it can have ended
(`Pipeline.Ordered`), which happening made a call (`Pipeline.prompted_run`),
and which submissions are superseded (`Pipeline.superseded_run`). The journal
decides nothing (`Pipeline.Agrees.step`), so that the path of a submission can
be read off a run in which no service notes anything. `Pipeline.in_order` puts
this together.
-/

namespace LiveScene.Live

open Diagnostics Scene Sandbox Compiler

/-! ## Paths of stages -/

/-- Steps of the table, one after another, from one stage to another. -/
inductive Stage.Path : Stage → List (Stage × Stage) → Stage → Prop
  | nil {a : Stage} : Path a [] a
  | snoc {a b c : Stage} {moves : List (Stage × Stage)} (h : Path a moves b)
      (hbc : b.allows c = true) : Path a (moves ++ [(b, c)]) c

/-- A path that goes on where another ends. -/
theorem Stage.Path.append {a b c : Stage} {moves more : List (Stage × Stage)}
    (h : Path a moves b) (hmore : Path b more c) : Path a (moves ++ more) c := by
  induction hmore with
  | nil => simpa using h
  | snoc _ hbc ih =>
    rw [← List.append_assoc]
    exact .snoc ih hbc

/-- The two stages of an event that is a move between stages. -/
def Event.move? : Event → Option (Stage × Stage)
  | moved source target => some (source, target)
  | _ => none

namespace Stretch

variable {w : Stretch} {a target : Stage}

/-- The moves that a stretch has noted lead from a stage to the one of its submission. -/
def Walks (w : Stretch) (a : Stage) : Prop :=
  Stage.Path a (w.events.filterMap Event.move?) w.submission.stage

/-- Noting what is no move leaves the path. -/
theorem Walks.note (hw : w.Walks a) {e : Event} (he : e.move? = none) : (w.note e).Walks a := by
  simpa [Walks, Stretch.note, he] using hw

theorem Walks.publish (hw : w.Walks a) (t : Transition) : (w.publish t).Walks a := hw

theorem Walks.change (hw : w.Walks a) (t : Transition) : (w.change t).Walks a := hw

/-- Stages are only left by steps of the table: any other ends the submission where it is. -/
theorem Walks.advance (hw : w.Walks a) {next : Stretch → Stretch}
    (hnext : ∀ w : Stretch, w.Walks a → (next w).Walks a) :
    (w.advance target next).Walks a := by
  unfold Stretch.advance Stage.advance
  split
  · exact hw
  · rename_i s hs
    split_ifs at hs with hallow
    obtain rfl := Except.ok.inj hs
    refine hnext _ ?_
    simpa [Walks, Stretch.note, Event.move?] using Stage.Path.snoc hw hallow

/-- A submission that ends takes one more step, or none. -/
theorem Walks.finish (hw : w.Walks a) : (w.finish target).Walks a :=
  hw.advance fun _ h => h

/-- So does one that gives way. -/
theorem Walks.supersede (hw : w.Walks a) (n : Nat) : (w.supersede n).Walks a :=
  (hw.note rfl).finish

/-- So does one that an error ends. -/
theorem Walks.blockOnRuntime (hw : w.Walks a) (r : ErrorRecord) : (w.blockOnRuntime r).Walks a :=
  (hw.publish _).finish

end Stretch

namespace Submission

variable {s : Submission} {fence : Bool} {latest : Nat} {h : Happening} {w : Stretch}

/-- With an answer of the compiler a submission only takes steps of the table. -/
theorem compiled_walks (a : Except CompileError Compilation) :
    (s.compiled fence latest a).Walks s.stage := by
  have hw : (Stretch.ofSubmission s).Walks s.stage := .nil
  unfold Submission.compiled
  split
  · exact hw
  · split_ifs
    · exact hw.supersede _
    · exact ((hw.note rfl).publish _).finish
    · exact hw.advance fun _ h => h

/-- So it does with an answer of the sandbox. -/
theorem executed_walks (code : String) (a : Except SandboxError Result) :
    (s.executed fence latest code a).Walks s.stage := by
  have hw : (Stretch.ofSubmission s).Walks s.stage := .nil
  unfold Submission.executed
  split_ifs
  · exact hw.supersede _
  · split
    · rename_i exports
      unfold exported
      split
      · exact hw.blockOnRuntime _
      · exact (hw.publish _).advance fun _ h => h
    · exact (hw.note rfl).blockOnRuntime _
    · exact (hw.note rfl).finish
    · split
      · exact (hw.note rfl).blockOnRuntime _
      · exact hw

/-- So it does with an answer of the renderer. -/
theorem rendered_walks (a : Rendered) : (s.rendered fence latest a).Walks s.stage := by
  have hw : (Stretch.ofSubmission s).Walks s.stage := .nil
  unfold Submission.rendered
  split_ifs
  · exact hw.supersede _
  · split
    · exact (((hw.note rfl).publish _).change _).finish
    · exact ((hw.note rfl).publish _).finish
    · exact hw.note rfl

/-- Whatever a submission resumes with, it only takes steps of the table. -/
theorem Resumes.walks (hr : s.Resumes fence latest h w) : w.Walks s.stage := by
  cases hr with
  | compiled _ a => exact compiled_walks a
  | executed _ a => exact executed_walks _ a
  | rendered _ a => exact rendered_walks a

end Submission

/-! ## What one answer leads to -/

/-- The services that a submission asks. -/
inductive Service where
  | compiler
  | sandbox
  | renderer
  deriving DecidableEq, Repr

namespace Service

/-- In the order in which a submission asks them. -/
def all : List Service := [compiler, sandbox, renderer]

end Service

/-- The service that a call is made to. -/
def Call.service : Call → Service
  | compile _ => .compiler
  | execute _ => .sandbox
  | render _ => .renderer

/-- A happening makes the submission of a number and a source call a service: its start the
compiler, a compilation without findings the sandbox, and a default export the renderer. -/
inductive Happening.Prompts (n : Nat) (source : String) : Happening → Call → Prop
  | compile : Prompts n source (.submitted source) (.compile source)
  | execute {c : Compilation} (hc : c.hasDiagnostics = false) :
      Prompts n source (.compiled n (.ok c)) (.execute c.emitted)
  | render {exports : Exports} {scene : Json} (hx : exports.default? = some scene) :
      Prompts n source (.executed n (.ok (.ok exports))) (.render ⟨source, scene⟩)

namespace Submission

variable {s s' : Submission} {stale : Bool} {h : Happening} {ts : List Transition}
  {call : Option Call} {own : List Call}

/-- The services that a submission has asked by now. -/
def Asked (s : Submission) (own : List Call) : Prop :=
  match s.phase with
  | .compiling => own.map Call.service = [.compiler]
  | .executing _ => own.map Call.service = [.compiler, .sandbox]
  | .rendering _ => own.map Call.service = [.compiler, .sandbox, .renderer]
  | .ended _ | .dropped => own ≠ [] ∧ own.map Call.service <+: Service.all

/-- If a submission has ended then not by a step that the table lacks, and its report is
about its own number and stage, where the table ends. -/
def Settled (s : Submission) : Prop :=
  match s.phase with
  | .ended (.error (.illegal _)) => False
  | .ended (.ok r) => r.seq = s.seq ∧ r.stage = s.stage ∧ r.stage.terminal = true
  | _ => True

/-- A settled submission has not ended in an illegal step, and its report is of itself and of a
terminal stage. -/
theorem Settled.of_result? {result : Except SubmitError Report} (hs : s.Settled)
    (hr : s.phase.result? = some result) :
    (∀ e, result ≠ .error (.illegal e)) ∧
      ∀ r, result = .ok r → r.seq = s.seq ∧ r.stage = s.stage ∧ r.stage.terminal = true := by
  cases hph : s.phase with
  | ended ended =>
    obtain rfl : ended = result := by simpa [hph, Phase.result?] using hr
    simp only [Settled, hph] at hs
    refine ⟨?_, ?_⟩
    · rintro e rfl
      exact hs
    · rintro r rfl
      exact hs
  | _ => simp [hph, Phase.result?] at hr

/-- A submission has asked the compiler, and no service twice or out of order. -/
theorem Asked.services (ha : s.Asked own) : own ≠ [] ∧ own.map Call.service <+: Service.all := by
  have hne : ∀ {l : List Service}, own.map Call.service = l → l ≠ [] → own ≠ [] := by
    rintro l h hl rfl
    exact hl h.symm
  unfold Asked at ha
  split at ha
  · exact ⟨hne ha (by simp), ha ▸ by decide⟩
  · exact ⟨hne ha (by simp), ha ▸ by decide⟩
  · exact ⟨hne ha (by simp), ha ▸ by decide⟩
  · exact ha
  · exact ha

/-- A call that follows from an answer is the next in order. -/
theorem Goes.asked (hg : s.Goes stale h s' ts call) (ha : s.Asked own) :
    s'.Asked (own ++ call.toList) := by
  cases hg with
  | clean hp _ | exported hp _ =>
    simp only [Asked, hp] at ha
    simp [Asked, ha, Call.service]
  | _ => simpa [Asked, reported, failed] using ha.services

/-- A submission is settled after every answer. -/
theorem Goes.settled (hg : s.Goes stale h s' ts call) : s'.Settled := by
  cases hg <;> simp [Settled, reported, failed, Stage.terminal, Stage.allowed]

/-- The call that follows from an answer is the one that it prompts. -/
theorem Goes.prompts {k : Call} (hg : s.Goes stale h s' ts (some k)) :
    h.Prompts s.seq s.source k := by
  generalize hc : some k = call at hg
  cases hg with
  | clean _ hd => exact Option.some.inj hc ▸ .execute hd
  | exported _ hx => exact Option.some.inj hc ▸ .render hx
  | _ => cases hc

/-- Only a submission that has been overtaken ends superseded. -/
theorem Goes.stale_of_superseded {r : Report} (hg : s.Goes stale h s' ts call)
    (hr : s'.phase.result? = some (.ok r)) (hstage : r.stage = .superseded) : stale = true := by
  cases hg with
  | overtaken => rfl
  | _ => simp [reported, failed, Phase.result?] at hr <;> simp [← hr] at hstage

end Submission

/-! ## What a step does to one submission -/

namespace Pipeline

variable {p : Pipeline} {s s' : Submission} {h : Happening} {n : Nat}

/-- The calls of the submission of a number. -/
def callsOf (p : Pipeline) (n : Nat) : List Call :=
  p.calls.filterMap fun (m, k) => if m = n then some k else none

/-- The moves between stages that the journal lists for a submission. -/
def moves (p : Pipeline) (n : Nat) : List (Stage × Stage) :=
  p.journal.filterMap fun e => if e.seq = some n then e.event.move? else none

/-- What a step can do to the submission of a number, which is `s'` afterwards. -/
inductive Turns (p : Pipeline) (h : Happening) (q : Pipeline) (n : Nat) (s' : Submission) : Prop
  | kept (hs : p.submission? n = some s') (hk : q.callsOf n = p.callsOf n)
  | started {source : String} (hh : h = .submitted source) (hn : n = p.latest + 1)
      (hs : s' = Pipeline.started n source) (hk : q.callsOf n = p.callsOf n ++ [.compile source])
  | dropped {s : Submission} (hs : p.submission? n = some s)
      (hs' : s' = { s with phase := .dropped }) (hk : q.callsOf n = p.callsOf n)
  | went {s : Submission} {ts : List Transition} {call : Option Call}
      (hs : p.submission? n = some s) (hw : s.phase.waits = true)
      (hg : s.Goes (s.isStale p.fence p.latest) h s' ts call)
      (hk : q.callsOf n = p.callsOf n ++ call.toList)

/-- The calls of a stretch are added to those of its submission. -/
theorem callsOf_perform (p : Pipeline) (w : Stretch) (n : Nat) :
    (p.perform w).callsOf n =
      p.callsOf n ++ if w.submission.seq = n then w.call.toList else [] := by
  cases hc : w.call <;> by_cases hn : w.submission.seq = n <;> simp [callsOf, perform, hc, hn]

/-- A submission that starts calls the compiler. -/
theorem callsOf_submit (p : Pipeline) (source : String) (n : Nat) :
    (p.submit source).callsOf n =
      p.callsOf n ++ if n = p.latest + 1 then [.compile source] else [] := by
  by_cases hn : n = p.latest + 1
  · simp [callsOf, calls_submit, hn]
  · simp [callsOf, calls_submit, hn, Ne.symm hn]

/-- The moves of a stretch are added to those of its submission. -/
theorem moves_perform (p : Pipeline) (w : Stretch) (n : Nat) :
    (p.perform w).moves n = p.moves n ++
      if w.submission.seq = n then w.events.filterMap Event.move? else [] := by
  by_cases hn : w.submission.seq = n
  · simp [moves, perform, hn, List.filterMap_map]
  · simp [moves, perform, hn, List.filterMap_map]

/-- Whatever a step does to a submission is one of these. -/
theorem turns_step (hp : p.Sound) (hs' : (p.step h).submission? n = some s') :
    p.Turns h (p.step h) n s' := by
  have hsteps := steps_step hp h
  generalize p.step h = q at hsteps hs' ⊢
  cases hsteps with
  | @submitted source =>
    rw [submission?_submit] at hs'
    have hk := callsOf_submit p source n
    split_ifs at hs' with hn
    · exact .started rfl hn (by rw [← Option.some.inj hs', hn]) (by rw [hk, if_pos hn])
    · exact .kept hs' (by rw [hk, if_neg hn, List.append_nil])
  | @resumed s _ w hs hr =>
    have hg := hr.goes (hp.staged _ _ hs)
    rw [submission?_perform (hg.seq ▸ hs)] at hs'
    have hk := callsOf_perform p w n
    split_ifs at hs' with hn
    · obtain rfl := Option.some.inj hs'
      rw [if_pos hn.symm] at hk
      exact .went (by rw [hn, hg.seq]; exact hs) hr.waits hg hk
    · rw [if_neg (Ne.symm hn), List.append_nil] at hk
      exact .kept hs' hk
  | @abandoned s hs hph =>
    rw [submission?_put (by exact hs)] at hs'
    split_ifs at hs' with hn
    · exact .dropped (hn ▸ hs) (Option.some.inj hs').symm rfl
    · exact .kept hs' rfl
  | ticked => exact .kept hs' rfl
  | noted => exact .kept hs' rfl
  | unfit _ => exact .kept hs' rfl

/-! ## Every run -/

/-- In a run of `p` there is a step that `P` holds of. -/
def Sometime (p : Pipeline) (hs : List Happening) (P : Pipeline → Happening → Prop) : Prop :=
  ∃ before h after, hs = before ++ h :: after ∧ P (p.run before) h

/-- What came to pass in a run did so in a longer one. -/
theorem Sometime.snoc {hs : List Happening} {P : Pipeline → Happening → Prop}
    (hP : p.Sometime hs P) (h : Happening) : p.Sometime (hs ++ [h]) P := by
  obtain ⟨before, k, after, rfl, hk⟩ := hP
  exact ⟨before, k, after ++ [h], by simp, hk⟩

/-- What holds where a happening comes last comes to pass. -/
theorem sometime_last {hs : List Happening} {P : Pipeline → Happening → Prop}
    (hP : P (p.run hs) h) : p.Sometime (hs ++ [h]) P :=
  ⟨hs, h, [], rfl, hP⟩

theorem run_snoc (p : Pipeline) (hs : List Happening) (h : Happening) :
    p.run (hs ++ [h]) = (p.run hs).step h :=
  run_append p hs [h]

/-- A result is that of a submission that has ended. -/
theorem result?_eq_some {r : Except SubmitError Report} (hr : p.result? n = some r) :
    ∃ s, p.submission? n = some s ∧ s.phase.result? = some r := by
  cases hs : p.submission? n with
  | none => simp [result?, hs] at hr
  | some s => exact ⟨s, rfl, (result?_eq hs).symm.trans hr⟩

/-- Submissions have asked services in order, those that have ended did so where the table
ends, and no service has been asked for a submission that has not started. -/
structure Ordered (p : Pipeline) : Prop where
  asked : ∀ n s, p.submission? n = some s → s.Asked (p.callsOf n)
  settled : ∀ n s, p.submission? n = some s → s.Settled
  unasked : ∀ n, p.latest < n → p.callsOf n = []

/-- Without submissions nothing is out of order. -/
theorem ordered_new (fence : Bool) (store : Store) : (new fence store).Ordered := by
  constructor <;> simp [new, submission?, callsOf]

/-- A submission that has not started has asked nothing. -/
theorem unasked_step (hp : p.Sound) (hu : ∀ n, p.latest < n → p.callsOf n = [])
    (hn : (p.step h).latest < n) : (p.step h).callsOf n = [] := by
  have hsteps := steps_step hp h
  generalize p.step h = q at hsteps hn ⊢
  cases hsteps with
  | submitted =>
    rw [latest_submit] at hn
    rw [callsOf_submit, hu n (by omega), if_neg (by omega), List.append_nil]
  | @resumed s _ w hs hr =>
    have hseq := (hr.goes (hp.staged _ _ hs)).seq
    have hle := le_latest_of_submission? hs
    have hlatest : (p.perform w).latest = p.latest := latest_put p _
    rw [callsOf_perform, hu n (by omega), if_neg (by omega), List.append_nil]
  | abandoned => exact hu n (by simpa using hn)
  | ticked => exact hu n hn
  | noted => exact hu n hn
  | unfit => exact hu n hn

/-- Every step keeps the order. -/
theorem Ordered.step (ho : p.Ordered) (hp : p.Sound) (h : Happening) : (p.step h).Ordered where
  asked n s' hs' := by
    cases turns_step hp hs' with
    | kept hs hk => exact hk ▸ ho.asked n s' hs
    | started _ hn hs hk =>
      rw [hk, ho.unasked n (by omega), hs]
      rfl
    | dropped hs hs' hk =>
      rw [hk, hs']
      exact (ho.asked n _ hs).services
    | went hs _ hg hk => exact hk ▸ hg.asked (ho.asked n _ hs)
  settled n s' hs' := by
    cases turns_step hp hs' with
    | kept hs _ => exact ho.settled n s' hs
    | started _ _ hs _ => exact hs ▸ trivial
    | dropped _ hs' _ => exact hs' ▸ trivial
    | went _ _ hg _ => exact hg.settled
  unasked n hn := unasked_step hp ho.unasked hn

/-- So every run does. -/
theorem ordered_run (fence : Bool) (store : Store) (hs : List Happening) :
    ((new fence store).run hs).Ordered := by
  induction hs using List.reverseRecOn with
  | nil => exact ordered_new fence store
  | append_singleton hs h ih =>
    rw [run_snoc]
    exact ih.step (sound_run (sound_new fence store) hs) h

/-- Every call was made in one step, by a happening that prompts it. -/
theorem prompted_run {fence : Bool} {store : Store} {hs : List Happening} {k : Call}
    (hs' : ((new fence store).run hs).submission? n = some s')
    (hk : k ∈ ((new fence store).run hs).callsOf n) :
    (new fence store).Sometime hs fun p h =>
      h.Prompts n s'.source k ∧ (p.step h).callsOf n = p.callsOf n ++ [k] := by
  induction hs using List.reverseRecOn generalizing s' with
  | nil => simp [run, new, submission?] at hs'
  | append_singleton hs h ih =>
    rw [run_snoc] at hs' hk
    have hp := sound_run (sound_new fence store) hs
    cases turns_step hp hs' with
    | kept hsub hk' => exact (ih hsub (hk' ▸ hk)).snoc h
    | @started source hh hn hsub hk' =>
      have hu := (ordered_run fence store hs).unasked n (by omega)
      rw [hk', hu] at hk
      obtain rfl : k = .compile source := by simpa using hk
      refine sometime_last ⟨?_, hk'⟩
      rw [hh, hsub]
      exact .compile
    | dropped hsub hs' hk' =>
      rw [hs']
      exact (ih hsub (hk' ▸ hk)).snoc h
    | @went s _ call hsub _ hg hk' =>
      rw [hg.source]
      rw [hk', List.mem_append] at hk
      rcases hk with hk | hk
      · exact (ih hsub hk).snoc h
      · obtain rfl := Option.mem_toList.1 hk
        exact sometime_last ⟨hp.numbered n s hsub ▸ hg.prompts, hk'⟩

/-- Only behind the fence is a submission superseded, and not before a newer one started. -/
theorem superseded_run {fence : Bool} {store : Store} {hs : List Happening} {r : Report}
    (hr : ((new fence store).run hs).result? n = some (.ok r)) (hstage : r.stage = .superseded) :
    fence = true ∧ (new fence store).Sometime hs fun p h =>
      p.result? n = none ∧ (p.step h).result? n = some (.ok r) ∧ n < p.latest := by
  induction hs using List.reverseRecOn with
  | nil => simp [run, new, result?, submission?] at hr
  | append_singleton hs h ih =>
    have hnew := sound_new fence store
    have hp := sound_run hnew hs
    rw [run_snoc] at hr
    obtain ⟨s', hs', hph⟩ := result?_eq_some hr
    cases turns_step hp hs' with
    | kept hsub _ =>
      obtain ⟨hf, hsome⟩ := ih ((result?_eq hsub).trans hph)
      exact ⟨hf, hsome.snoc h⟩
    | started _ _ hsub _ => simp [hsub, started, Phase.result?] at hph
    | dropped _ hs' _ => simp [hs', Phase.result?] at hph
    | @went s _ _ hsub hw hg _ =>
      have hstale := hg.stale_of_superseded hph hstage
      have hseq := hp.numbered n s hsub
      have hle := le_latest_of_submission? hsub
      have hf : ((new fence store).run hs).fence = fence := fence_run hnew hs
      simp only [Submission.isStale, hf, hseq, Bool.and_eq_true, decide_eq_true_eq] at hstale
      obtain ⟨hf, hne⟩ := hstale
      exact ⟨hf, sometime_last
        ⟨(result?_eq hsub).trans (Phase.result?_eq_none hw), hr, by omega⟩⟩

/-! ## The stages of a run -/

end Pipeline

/-- A happening that is only a note of a service. -/
def Happening.isNote : Happening → Bool
  | noted _ => true
  | _ => false

namespace Pipeline

variable {p q : Pipeline} {s s' : Submission} {h : Happening} {n : Nat}

/-- Two pipelines that differ in their journals only. -/
def Agrees (p q : Pipeline) : Prop :=
  ∃ journal, q = { p with journal := journal }

/-- Pipelines that agree have the same submissions. -/
theorem Agrees.submission?_eq (ha : p.Agrees q) (n : Nat) : q.submission? n = p.submission? n := by
  obtain ⟨journal, rfl⟩ := ha
  rfl

/-- They agree after the same stretch. -/
theorem Agrees.perform (ha : p.Agrees q) (w : Stretch) : (p.perform w).Agrees (q.perform w) := by
  obtain ⟨journal, rfl⟩ := ha
  exact ⟨_, rfl⟩

/-- The journal decides nothing. -/
theorem Agrees.step (ha : p.Agrees q) (h : Happening) : (p.step h).Agrees (q.step h) := by
  have hperform := ha.perform
  have hsub := ha.submission?_eq
  obtain ⟨journal, rfl⟩ := ha
  cases h with
  | submitted source => exact ⟨_, rfl⟩
  | ticked => exact ⟨_, rfl⟩
  | noted e => exact ⟨_, rfl⟩
  | compiled n a | executed n a | rendered n a | abandoned n =>
    simp only [Pipeline.step, hsub]
    split
    · split
      all_goals first | exact hperform _ | exact ⟨_, rfl⟩
    · exact ⟨_, rfl⟩

/-- A run agrees with the one in which no service notes anything. -/
theorem agrees_filter_isNote (p : Pipeline) (hs : List Happening) :
    (p.run hs).Agrees (p.run (hs.filter (!·.isNote))) := by
  induction hs using List.reverseRecOn with
  | nil => exact ⟨_, rfl⟩
  | append_singleton hs h ih =>
    rw [List.filter_append, run_snoc]
    cases hh : h.isNote with
    | false =>
      rw [List.filter_cons_of_pos (by simp [hh]), List.filter_nil, run_snoc]
      exact ih.step h
    | true =>
      rw [List.filter_cons_of_neg (by simp [hh]), List.filter_nil, List.append_nil]
      cases h with
      | noted e =>
        obtain ⟨journal, hj⟩ := ih
        exact ⟨journal, hj⟩
      | _ => cases hh

/-- The moves noted of each submission lead from the first stage to its own. -/
structure Charted (p : Pipeline) : Prop where
  walked : ∀ n s, p.submission? n = some s → Stage.Path .idle (p.moves n) s.stage
  unmoved : ∀ n, p.latest < n → p.moves n = []

/-- Without submissions every path is charted. -/
theorem charted_new (fence : Bool) (store : Store) : (new fence store).Charted := by
  constructor <;> simp [new, submission?, moves]

/-- A submission that starts moves from idle to compiling. -/
theorem moves_submit (p : Pipeline) (source : String) (n : Nat) :
    (p.submit source).moves n =
      p.moves n ++ if n = p.latest + 1 then [(.idle, .compiling)] else [] := by
  rw [submit, start_eq, moves_perform]
  by_cases hn : n = p.latest + 1
  · rw [if_pos hn, if_pos (by exact hn.symm)]
    rfl
  · rw [if_neg hn, if_neg (by exact Ne.symm hn)]
    rfl

/-- A stretch that takes steps of the table keeps the paths charted. -/
theorem Charted.perform {w : Stretch} (hc : p.Charted)
    (hs : p.submission? w.submission.seq = some s) (hw : w.Walks s.stage) :
    (p.perform w).Charted where
  walked n s' hs' := by
    rw [submission?_perform hs] at hs'
    rw [moves_perform]
    split_ifs at hs' with hn
    · rw [if_pos hn.symm, ← Option.some.inj hs', hn]
      exact (hc.walked _ s hs).append hw
    · rw [if_neg (Ne.symm hn), List.append_nil]
      exact hc.walked n s' hs'
  unmoved n hn := by
    have hle := le_latest_of_submission? hs
    have hlatest : (p.perform w).latest = p.latest := latest_put p _
    rw [moves_perform, if_neg (by omega), List.append_nil]
    exact hc.unmoved n (by omega)

/-- So does the start of a submission. -/
theorem Charted.submit (hc : p.Charted) (source : String) : (p.submit source).Charted where
  walked n s' hs' := by
    rw [submission?_submit] at hs'
    rw [moves_submit]
    split_ifs at hs' with hn
    · rw [hc.unmoved n (by omega), if_pos hn, ← Option.some.inj hs']
      exact .snoc .nil rfl
    · rw [if_neg hn, List.append_nil]
      exact hc.walked n s' hs'
  unmoved n hn := by
    rw [latest_submit] at hn
    rw [moves_submit, hc.unmoved n (by omega), if_neg (by omega), List.append_nil]

/-- So does every step in which no service notes anything. -/
theorem Charted.step (hc : p.Charted) (hp : p.Sound) (hh : h.isNote = false) :
    (p.step h).Charted := by
  have hsteps := steps_step hp h
  generalize p.step h = q at hsteps ⊢
  cases hsteps with
  | submitted => exact hc.submit _
  | resumed hs hr => exact hc.perform ((hr.goes (hp.staged _ _ hs)).seq ▸ hs) hr.walks
  | @abandoned s hs _ =>
    refine ⟨fun n s' hs' => ?_, fun n hn => hc.unmoved n (by simpa using hn)⟩
    rw [submission?_put (by exact hs)] at hs'
    split_ifs at hs' with hn
    · rw [← Option.some.inj hs', hn]
      exact hc.walked _ s hs
    · exact hc.walked n s' hs'
  | ticked => exact ⟨hc.walked, hc.unmoved⟩
  | noted => cases hh
  | unfit => exact hc

/-- In a run in which no service notes anything all paths are charted. -/
theorem charted_run (fence : Bool) (store : Store) (hs : List Happening)
    (hhs : ∀ h ∈ hs, h.isNote = false) : ((new fence store).run hs).Charted := by
  induction hs using List.reverseRecOn with
  | nil => exact charted_new fence store
  | append_singleton hs h ih =>
    rw [run_snoc]
    exact (ih fun k hk => hhs k (by simp [hk])).step (sound_run (sound_new fence store) hs)
      (hhs h (by simp))

/-- Stages and calls are in order. Whatever submissions start over a store, resume with any
answers and are dropped, in any order, with the fence or without: the moves noted of a
submission, apart from what services note, are steps of the table from the first stage to its
own. It has called the compiler once, with its source, then the sandbox at most once, after a
compilation without findings, and then the renderer at most once, with its source and the
default export of the sandbox. It does not end by a step that the table lacks; its report is
about the stage it is at, where the table ends; and this is `superseded` only behind the fence
and if a newer submission started before it ended. -/
theorem in_order (fence : Bool) (store : Store) (hs : List Happening) :
    let p := (new fence store).run hs
    (∀ n s, p.submission? n = some s →
      Stage.Path .idle (((new fence store).run (hs.filter (!·.isNote))).moves n) s.stage ∧
      p.callsOf n ≠ [] ∧ (p.callsOf n).map Call.service <+: Service.all ∧
      ∀ k ∈ p.callsOf n, (new fence store).Sometime hs fun q h =>
        h.Prompts n s.source k ∧ (q.step h).callsOf n = q.callsOf n ++ [k]) ∧
    ∀ n result, p.result? n = some result →
      (∀ e, result ≠ .error (.illegal e)) ∧
      ∀ r, result = .ok r →
        ((p.submission? n).map Submission.stage = some r.stage ∧ r.seq = n) ∧
        r.stage.terminal = true ∧
        (r.stage = .superseded → fence = true ∧ (new fence store).Sometime hs fun q h =>
          q.result? n = none ∧ (q.step h).result? n = some (.ok r) ∧ n < q.latest) := by
  intro p
  have hp : p.Sound := sound_run (sound_new fence store) hs
  have ho : p.Ordered := ordered_run fence store hs
  refine ⟨fun n s hsub => ?_, fun n result hr => ?_⟩
  · have hagree := agrees_filter_isNote (new fence store) hs
    have hchart := charted_run fence store (hs.filter (!·.isNote)) fun h hh => by
      simpa using (List.mem_filter.1 hh).2
    obtain ⟨hne, hprefix⟩ := (ho.asked n s hsub).services
    exact ⟨hchart.walked n s ((hagree.submission?_eq n).trans hsub), hne, hprefix,
      fun k hk => prompted_run hsub hk⟩
  · obtain ⟨s, hsub, hph⟩ := result?_eq_some hr
    obtain ⟨hlegal, hreport⟩ := (ho.settled n s hsub).of_result? hph
    refine ⟨hlegal, fun r hok => ?_⟩
    subst hok
    obtain ⟨hseq, hstage, hterm⟩ := hreport r rfl
    refine ⟨⟨?_, hseq.trans (hp.numbered n s hsub)⟩, hterm, fun hsup => superseded_run hr hsup⟩
    rw [hsub, hstage]
    rfl

/-- Without the fence a submission that is overtaken while it compiles goes on. -/
example :
    let p := (new false (.ofInitial .default 4)).run
      [.submitted "1", .submitted "2", .compiled 1 (.ok (.clean "1"))]
    (p.callsOf 1).map Call.service = [.compiler, .sandbox] ∧
      p.moves 1 = [(.idle, .compiling), (.compiling, .executing)] :=
  ⟨rfl, rfl⟩

end Pipeline

end LiveScene.Live
