import LiveScene.Proofs.Live.Changes

/-!
# What a report says

`Submission.Wrote` is what a submission has changed since it cleared the slate:
nothing until it asks the renderer, then the notes for debugging, and at its
end what its report tells (`Report.Tells`). Each answer keeps it
(`Submission.Goes.wrote`), and so does every step of a run
(`Pipeline.Accounted.snoc`).

`Pipeline.published_iff` is what a report's `published` comes to: the final
output or errors are shown, or the submission was overtaken with no more shown
than its notes. `Pipeline.overtaken_after_notes` is a run where it is the latter.
-/

namespace LiveScene.Live

open Diagnostics Scene Sandbox Compiler

namespace Transition

/-- Whether a change shows an output or errors. -/
def isResult : Transition → Bool
  | output _ | errors _ => true
  | source _ | debug _ | perf _ => false

/-- The changes that clear the slate for a source. -/
def slate (text : String) : List Transition := [source text, errors .empty]

end Transition

/-- What a report tells of the changes since the slate was cleared. -/
structure Report.Tells (r : Report) (own : List Transition) : Prop where
  published : r.published = true ↔ own ≠ []
  shown : (∃ t ∈ own, t.isResult = true) ↔ r.published = true ∧ r.stage ≠ .superseded
  overtaken : r.stage = .superseded → own ≠ [] → ∃ d, own = [.debug d]

/-- A report is published if the submission shows its result, or is overtaken with no more
shown than its notes for debugging. -/
theorem Report.Tells.shown_or_overtaken {r : Report} {own : List Transition} (ht : r.Tells own) :
    r.published = true ↔
      (∃ t ∈ own, t.isResult = true) ∨ (r.stage = .superseded ∧ ∃ d, own = [.debug d]) := by
  constructor
  · intro hpub
    by_cases hstage : r.stage = .superseded
    · exact .inr ⟨hstage, ht.overtaken hstage (ht.published.1 hpub)⟩
    · exact .inl (ht.shown.2 ⟨hpub, hstage⟩)
  · rintro (hshown | ⟨-, d, rfl⟩)
    · exact (ht.shown.1 hshown).1
    · exact ht.published.2 (by simp)

theorem Phase.eq_ended {phase : Phase} {r : Except SubmitError Report}
    (h : phase.result? = some r) : phase = .ended r := by
  cases phase with
  | ended => rw [Option.some.inj h]
  | _ => cases h

namespace Submission

variable {s s' : Submission} {stale : Bool} {h : Happening} {ts own : List Transition}
  {call : Option Call}

/-- What a submission has changed since it cleared the slate. -/
def Wrote (s : Submission) (own : List Transition) : Prop :=
  match s.phase with
  | .compiling | .executing _ => own = [] ∧ s.published = false
  | .rendering _ => (∃ d, own = [.debug d]) ∧ s.published = true
  | .ended (.ok r) => r.Tells own
  | .ended (.error _) | .dropped => True

/-- Before it has ended a submission has shown no result, and what it says of itself is
what its report will say if it is overtaken. -/
theorem Wrote.tells_superseded (hs : s.Wrote own) (hw : s.phase.waits = true) :
    Report.Tells ⟨s.seq, .superseded, s.published⟩ own := by
  unfold Wrote at hs
  split at hs
  · obtain ⟨rfl, hpub⟩ := hs
    constructor <;> simp [hpub]
  · obtain ⟨rfl, hpub⟩ := hs
    constructor <;> simp [hpub]
  · obtain ⟨⟨d, rfl⟩, hpub⟩ := hs
    constructor <;> simp [hpub, Transition.isResult]
  · rename_i hph
    simp [hph, Phase.waits] at hw
  · rename_i hph
    simp [hph, Phase.waits] at hw
  · rename_i hph
    simp [hph, Phase.waits] at hw

/-- An answer adds to the changes of a submission what it should. -/
theorem Goes.wrote (hg : s.Goes stale h s' ts call) (hw : s.phase.waits = true)
    (hs : s.Wrote own) : s'.Wrote (own ++ ts) := by
  cases hg with
  | overtaken => simpa [Wrote, reported] using hs.tells_superseded hw
  | uncompiled | broken | mismatched => trivial
  | diagnosed hp | faulted hp | timedOut hp | valueless hp =>
    simp only [Wrote, hp] at hs
    obtain ⟨rfl, -⟩ := hs
    constructor <;> simp [Transition.isResult]
  | unclassified hp =>
    simp only [Wrote, hp] at hs
    obtain ⟨rfl, hpub⟩ := hs
    constructor <;> simp [hpub]
  | clean hp =>
    simp only [Wrote, hp] at hs
    simpa [Wrote] using hs
  | exported hp =>
    simp only [Wrote, hp] at hs
    simp [Wrote, hs.1]
  | rendered hp | rejected hp =>
    simp only [Wrote, hp] at hs
    obtain ⟨⟨d, rfl⟩, -⟩ := hs
    constructor <;> simp [Transition.isResult]

/-- An unclassified failure changes nothing. -/
theorem Goes.of_unclassified {n : Nat} {m : String}
    (hg : s.Goes stale (.executed n (.error (.unclassified m))) s' ts call) : ts = [] := by
  cases hg with
  | overtaken | unclassified => rfl
  | broken _ he => cases he

end Submission

namespace Pipeline

variable {p : Pipeline} {s s' : Submission} {h : Happening} {hs : List Happening} {n : Nat}

/-- The changes of a run are those of its submissions: each has cleared the slate and then
written what it should, and none that has not started has changed anything. -/
structure Accounted (p : Pipeline) (hs : List Happening) : Prop where
  wrote : ∀ n s, (p.run hs).submission? n = some s →
    ∃ own, p.changesOf hs n = Transition.slate s.source ++ own ∧ s.Wrote own
  unmade : ∀ n, (p.run hs).latest < n → p.changesOf hs n = []

/-- Without submissions there is nothing to account for. -/
theorem accounted_new (fence : Bool) (store : Store) : (new fence store).Accounted [] where
  wrote n s hs := by simp [run, new, submission?] at hs
  unmade _ _ := rfl

/-- After a step the changes of each submission are those that its state accounts for. -/
theorem Accounted.wrote_snoc (ha : p.Accounted hs) (hp : (p.run hs).Sound)
    (hs' : (p.run (hs ++ [h])).submission? n = some s') :
    ∃ own, p.changesOf (hs ++ [h]) n = Transition.slate s'.source ++ own ∧ s'.Wrote own := by
  rw [run_snoc] at hs'
  rw [changesOf_snoc]
  have hacts := acts_step hp h
  generalize (p.run hs).step h = q at hacts hs'
  generalize (p.run hs).stretch? h = o at hacts ⊢
  cases hacts with
  | @started source =>
    rw [submission?_submit] at hs'
    rw [Option.elim_some]
    split_ifs at hs' with hn
    · obtain rfl := Option.some.inj hs'
      have hslate : (Submission.start ((p.run hs).latest + 1) source).changesOf
          ((p.run hs).latest + 1) = Transition.slate source := if_pos rfl
      refine ⟨[], ?_, rfl, rfl⟩
      rw [ha.unmade n (by omega), hn, hslate, List.append_nil]
      rfl
    · rw [Stretch.changesOf_of_ne (by exact hn), List.append_nil]
      exact ha.wrote n s' hs'
  | @resumed s _ w hs hr =>
    have hg := hr.goes (hp.staged _ _ hs)
    rw [submission?_perform (hg.seq ▸ hs)] at hs'
    rw [Option.elim_some]
    split_ifs at hs' with hn
    · obtain rfl := Option.some.inj hs'
      obtain ⟨own, hown, hwrote⟩ := ha.wrote _ s hs
      refine ⟨own ++ w.transitions, ?_, hg.wrote hr.waits hwrote⟩
      rw [hn, Stretch.changesOf_seq, hg.seq, hown, hg.source, List.append_assoc]
    · rw [Stretch.changesOf_of_ne hn, List.append_nil]
      exact ha.wrote n s' hs'
  | idle _ _ hsubs =>
    rw [Option.elim_none, List.append_nil]
    rcases hsubs n with hkept | ⟨s, hs, -, hdropped⟩
    · exact ha.wrote n s' (hkept ▸ hs')
    · obtain rfl := Option.some.inj (hdropped.symm.trans hs')
      obtain ⟨own, hown, -⟩ := ha.wrote n s hs
      exact ⟨own, hown, trivial⟩

/-- A submission that has not started has made no changes. -/
theorem Accounted.unmade_snoc (ha : p.Accounted hs) (hp : (p.run hs).Sound)
    (hn : (p.run (hs ++ [h])).latest < n) : p.changesOf (hs ++ [h]) n = [] := by
  rw [run_snoc] at hn
  rw [changesOf_snoc]
  have hstep : ((p.run hs).step h).latest = (p.run hs).latest + List.countP Happening.isStart [h] :=
    latest_run hp [h]
  have hlt : (p.run hs).latest < n := by omega
  rw [ha.unmade n hlt, List.nil_append]
  have hacts := acts_step hp h
  generalize (p.run hs).step h = q at hacts hn hstep
  generalize (p.run hs).stretch? h = o at hacts ⊢
  cases hacts with
  | started =>
    rw [latest_submit] at hn
    exact Stretch.changesOf_of_ne (Nat.ne_of_gt hn)
  | @resumed s _ w hs hr =>
    have hg := hr.goes (hp.staged _ _ hs)
    have hle := le_latest_of_submission? hs
    exact Stretch.changesOf_of_ne (by rw [hg.seq]; omega)
  | idle => rfl

/-- The changes of every run are accounted for. -/
theorem accounted_run (fence : Bool) (store : Store) (hs : List Happening) :
    (new fence store).Accounted hs := by
  induction hs using List.reverseRecOn with
  | nil => exact accounted_new fence store
  | append_singleton hs h ih =>
    have hp := sound_run (sound_new fence store) hs
    exact ⟨fun _ _ => ih.wrote_snoc hp, fun _ => ih.unmade_snoc hp⟩

/-- A submission that has ended stays as it is. -/
theorem result?_step {r : Except SubmitError Report} (hp : p.Sound) (hr : p.result? n = some r)
    (h : Happening) : (p.step h).result? n = some r := by
  obtain ⟨s, hs, hph⟩ := result?_eq_some hr
  have hwaits : s.phase.waits = false := by
    cases hphase : s.phase with
    | ended => rfl
    | _ => simp [hphase, Phase.result?] at hph
  have hacts := acts_step hp h
  generalize p.step h = q at hacts ⊢
  generalize p.stretch? h = o at hacts
  cases hacts with
  | @started source =>
    have hle := le_latest_of_submission? hs
    rw [result?_eq (by rw [submission?_submit, if_neg (by omega)]; exact hs), hph]
  | @resumed t _ w ht hresumes =>
    have hseq := (hresumes.goes (hp.staged _ _ ht)).seq
    have hn : n ≠ w.submission.seq := by
      rintro rfl
      rw [hseq, ht] at hs
      rw [← Option.some.inj hs, hresumes.waits] at hwaits
      cases hwaits
    rw [result?_eq (by rw [submission?_perform (hseq ▸ ht), if_neg hn]; exact hs), hph]
  | idle _ _ hsubs =>
    rcases hsubs n with hkept | ⟨t, ht, hnone, -⟩
    · exact (result?_eq (hkept.trans hs)).trans hph
    · rw [hs] at ht
      rw [← Option.some.inj ht, hph] at hnone
      cases hnone

/-- It stays so for the rest of a run. -/
theorem result?_run {r : Except SubmitError Report} (hp : p.Sound) (hr : p.result? n = some r)
    (hs : List Happening) : (p.run hs).result? n = some r := by
  induction hs generalizing p with
  | nil => exact hr
  | cons h hs ih => exact ih (sound_step hp h) (result?_step hp hr h)

/-- What ends the submission of a number is an answer that it waits for, and it ends with
what follows from the answer. -/
theorem EndedBy.resumes (hp : p.Sound) (he : p.EndedBy hs n h) :
    ∃ before s w, (p.run before).submission? n = some s ∧
      s.Resumes (p.run before).fence (p.run before).latest h w ∧
      (p.run hs).result? n = w.submission.phase.result? := by
  obtain ⟨before, after, rfl, h0, h1⟩ := he
  have hb := sound_run hp before
  have hrun : p.run (before ++ h :: after) = ((p.run before).step h).run after :=
    run_append p before (h :: after)
  obtain ⟨r, hr⟩ := Option.ne_none_iff_exists'.1 h1
  rw [hrun, result?_run (sound_step hb h) hr after]
  obtain ⟨s', hs', hph⟩ := result?_eq_some hr
  have hkept : (p.run before).submission? n ≠ some s' := fun hs => by
    rw [result?_eq hs, hph] at h0
    cases h0
  have hacts := acts_step hb h
  generalize (p.run before).step h = q at hacts hs'
  generalize (p.run before).stretch? h = o at hacts
  cases hacts with
  | started =>
    rw [submission?_submit] at hs'
    split_ifs at hs' with hn
    · rw [← Option.some.inj hs'] at hph
      cases hph
    · exact (hkept hs').elim
  | @resumed s _ w hs hresumes =>
    have hseq := (hresumes.goes (hb.staged _ _ hs)).seq
    rw [submission?_perform (hseq ▸ hs)] at hs'
    split_ifs at hs' with hn
    · refine ⟨before, s, w, by rw [hn, hseq]; exact hs, hresumes, ?_⟩
      rw [Option.some.inj hs', hph]
    · exact (hkept hs').elim
  | idle _ _ hsubs =>
    rcases hsubs n with hsub | ⟨s, -, -, hdropped⟩
    · exact (hkept (hsub ▸ hs')).elim
    · rw [← Option.some.inj (hdropped.symm.trans hs')] at hph
      cases hph

/-- A submission that an unclassified failure ends has not shown its result, and its report
does not say so. -/
theorem not_published_of_unclassified {fence : Bool} {store : Store} {m : String} {r : Report}
    (he : (new fence store).EndedBy hs n (.executed n (.error (.unclassified m))))
    (hr : ((new fence store).run hs).result? n = some (.ok r)) : r.published = false := by
  have hnew := sound_new fence store
  obtain ⟨before, s, w, hs', hresumes, hend⟩ := he.resumes hnew
  have hg := hresumes.goes ((sound_run hnew before).staged _ _ hs')
  obtain ⟨own, -, hwrote⟩ := (accounted_run fence store before).wrote n s hs'
  have hph := Phase.eq_ended (hend.symm.trans hr)
  have hafter := hg.wrote hresumes.waits hwrote
  simp only [Submission.Wrote, hph] at hafter
  -- the submission was executing and had changed nothing
  have hown : own = [] := by
    cases hresumes with
    | executed hp _ =>
      simp only [Submission.Wrote, hp] at hwrote
      exact hwrote.1
  rw [hown, hg.of_unclassified] at hafter
  simpa using hafter.published

/-- The changes listed of a run are all there are, and a report tells of those of its
submission. Whatever submissions start over a store, resume with any answers and are dropped,
in any order, with the fence or without: a submission that has ended with a report cleared
the slate and made some changes after that. Its report says that it published if one of them
shows its output or its errors, or if it was overtaken with no more shown than its notes for
debugging, and in no other case. So it does not say so of a submission that an unclassified
failure has ended, or that was overtaken before it asked the renderer. -/
theorem published_iff (fence : Bool) (store : Store) (hs : List Happening) :
    let start := new fence store
    let p := start.run hs
    p.store.snapshots =
        store.history ++ ((start.changes hs).map Prod.snd).scanl Snapshot.apply store.current ∧
      ∀ n s r, p.submission? n = some s → p.result? n = some (.ok r) →
        (∃ own, start.changesOf hs n = Transition.slate s.source ++ own ∧
          (r.published = true ↔
            (∃ t ∈ own, t.isResult = true) ∨ (r.stage = .superseded ∧ ∃ d, own = [.debug d])) ∧
          (r.stage = .superseded → ∀ t ∈ own, t.isResult = false)) ∧
        ∀ m, start.EndedBy hs n (.executed n (.error (.unclassified m))) →
          r.published = false := by
  intro start p
  refine ⟨snapshots_run (sound_new fence store) hs, fun n s r hs' hr => ⟨?_, fun m he => ?_⟩⟩
  · obtain ⟨own, hown, hwrote⟩ := (accounted_run fence store hs).wrote n s hs'
    have hph := Phase.eq_ended ((result?_eq hs').symm.trans hr)
    simp only [Submission.Wrote, hph] at hwrote
    refine ⟨own, hown, hwrote.shown_or_overtaken, fun hstage t ht => ?_⟩
    by_contra hres
    exact (hwrote.shown.1 ⟨t, ht, by simpa using hres⟩).2 hstage
  · exact not_published_of_unclassified he hr

/-- A submission that is overtaken while it is rendered has shown nothing but its notes for
debugging, and its report says that it published. -/
theorem overtaken_after_notes :
    let start := new true (.ofInitial .default 4)
    let hs : List Happening := [.submitted "1", .compiled 1 (.ok (.clean "1")),
      .executed 1 (.ok (.ok (.ofList [("default", .nat 1)]))), .submitted "2",
      .rendered 1 (.ok ⟨[], .null⟩)]
    let own : List Transition := [.debug ⟨"1", some (.nat 1)⟩]
    (start.run hs).result? 1 = some (.ok ⟨1, .superseded, true⟩) ∧
      start.changesOf hs 1 = Transition.slate "1" ++ own ∧
      ¬ (true = true ↔ ∃ t ∈ own, t.isResult = true) := by
  refine ⟨rfl, rfl, ?_⟩
  simp [Transition.isResult]

end Pipeline

end LiveScene.Live
