import LiveScene.Proofs.Live.Answers

/-!
# What a happening does to a pipeline

`Pipeline.Steps` is the list of the steps of a pipeline: a submission starts,
resumes with an answer, or is dropped; a notice of the store fires; something
is noted; or the happening does not fit and nothing changes. In a pipeline
whose submissions are numbered as they stand and are at the stages of their
phases (`Pipeline.Sound`) every step is one of these (`Pipeline.steps_step`),
and a step leaves it so (`Pipeline.sound_step`).

`Pipeline.newest_step` is what all later steps can do to the submission that
started last, as long as no other one disturbs it: either the fence is on, or
all others have ended (`Pipeline.Quiet`).
-/

namespace LiveScene.Live

open Diagnostics Scene Sandbox Compiler

namespace Pipeline

variable {p : Pipeline} {s : Submission} {h : Happening}

/-- Submissions are numbered as they stand, and each is at the stage of its phase. -/
structure Sound (p : Pipeline) : Prop where
  numbered : ∀ n s, p.submission? n = some s → s.seq = n
  staged : ∀ n s, p.submission? n = some s → s.Staged

/-- The steps of a pipeline. -/
inductive Steps (p : Pipeline) : Happening → Pipeline → Prop
  | submitted {source : String} : Steps p (.submitted source) (p.submit source)
  | resumed {s : Submission} {h : Happening} {w : Stretch} (hs : p.submission? s.seq = some s)
      (hr : s.Resumes p.fence p.latest h w) : Steps p h (p.perform w)
  | abandoned {s : Submission} (hs : p.submission? s.seq = some s)
      (hp : s.phase.result? = none) :
      Steps p (.abandoned s.seq) (p.put { s with phase := .dropped })
  | ticked : Steps p .ticked { p with store := p.store.fire }
  | noted {e : Entry} : Steps p (.noted e) { p with journal := p.journal ++ [e] }
  | unfit {h : Happening} (hh : h.isStart = false) : Steps p h p

/-- A step that looks up the submission it names is one of the list if it is wherever that is
found: where it is not, the happening does not fit. -/
theorem steps_of_found (hp : p.Sound) (k : Nat → Happening) (hk : ∀ n, (k n).isStart = false)
    (n : Nat) {f : Submission → Pipeline}
    (hf : ∀ s, p.submission? s.seq = some s → p.Steps (k s.seq) (f s)) :
    p.Steps (k n) (match p.submission? n with
      | some s => f s
      | none => p) := by
  split
  · rename_i s hs
    obtain rfl := hp.numbered n s hs
    exact hf s hs
  · exact .unfit (hk n)

/-- Every step is one of the list. -/
theorem steps_step (hp : p.Sound) (h : Happening) : p.Steps h (p.step h) := by
  cases h with
  | submitted source => exact .submitted
  | compiled n a =>
    refine steps_of_found hp (.compiled · a) (fun _ => rfl) n fun s hs => ?_
    split
    · rename_i hph
      exact .resumed hs (.compiled hph a)
    · exact .unfit rfl
  | executed n a =>
    refine steps_of_found hp (.executed · a) (fun _ => rfl) n fun s hs => ?_
    split
    · rename_i hph
      exact .resumed hs (.executed hph a)
    · exact .unfit rfl
  | rendered n a =>
    refine steps_of_found hp (.rendered · a) (fun _ => rfl) n fun s hs => ?_
    split
    · rename_i hph
      exact .resumed hs (.rendered hph a)
    · exact .unfit rfl
  | abandoned n =>
    refine steps_of_found hp .abandoned (fun _ => rfl) n fun s hs => ?_
    split
    · exact .unfit rfl
    · rename_i hph
      refine .abandoned hs ?_
      cases hph' : s.phase with
      | ended r => exact (hph r hph').elim
      | _ => rfl
  | ticked => exact .ticked
  | noted e => exact .noted

/-- A submission that resumes does its stretch, and nothing else happens. -/
theorem step_eq_perform {w : Stretch} (hs : p.submission? s.seq = some s)
    (hr : s.Resumes p.fence p.latest h w) : p.step h = p.perform w := by
  cases hr with
  | compiled hp a | executed hp a | rendered hp a => simp [step, hs, hp]

/-! ## What the operations change -/

theorem run_append (p : Pipeline) (hs more : List Happening) :
    p.run (hs ++ more) = (p.run hs).run more :=
  List.foldl_append

/-- The result of a submission is that of its phase. -/
theorem result?_eq {n : Nat} (hs : p.submission? n = some s) :
    p.result? n = s.phase.result? := by
  simp only [result?, hs, Option.bind_eq_bind, Option.bind_some]
  cases s.phase <;> rfl

/-- Submissions are numbered from one on. -/
theorem pos_of_submission? {n : Nat} (hs : p.submission? n = some s) : 0 < n := by
  unfold submission? at hs
  split_ifs at hs with h0
  omega

/-- No submission has a number beyond the newest. -/
theorem le_latest_of_submission? {n : Nat} (hs : p.submission? n = some s) : n ≤ p.latest := by
  have hpos := pos_of_submission? hs
  unfold submission? at hs
  rw [if_neg (by omega)] at hs
  have := (List.getElem?_eq_some_iff.1 hs).1
  unfold latest
  omega

@[simp] theorem latest_put (p : Pipeline) (s : Submission) : (p.put s).latest = p.latest := by
  simp [put, latest]

/-- Putting a submission back replaces it and no other. -/
theorem submission?_put {t : Submission} (hs : p.submission? t.seq = some s) (m : Nat) :
    (p.put t).submission? m = if m = t.seq then some t else p.submission? m := by
  have hpos := pos_of_submission? hs
  have hle := le_latest_of_submission? hs
  unfold latest at hle
  by_cases hm : m = t.seq
  · subst hm
    rw [if_pos rfl, submission?, if_neg (by omega)]
    simp only [put]
    rw [List.getElem?_set_self (by omega)]
  · rw [if_neg hm]
    unfold submission? put
    split_ifs with h0
    · rfl
    · rw [List.getElem?_set_ne (by omega)]

/-- So does a stretch. -/
theorem submission?_perform {w : Stretch} (hs : p.submission? w.submission.seq = some s) (m : Nat) :
    (p.perform w).submission? m =
      if m = w.submission.seq then some w.submission else p.submission? m :=
  submission?_put hs m

theorem snapshot_foldl_apply (ts : List Transition) (timed : Bool) (s : Store) :
    (ts.foldl (fun st t => st.apply timed t) s).current = ts.foldl Snapshot.apply s.current := by
  induction ts generalizing s with
  | nil => rfl
  | cons t ts ih =>
    have happly : (s.apply timed t).current = s.current.apply t := by
      simp only [Store.apply, Store.announce]
      split_ifs <;> rfl
    rw [List.foldl_cons, List.foldl_cons, ih, happly]

/-- The snapshot after a stretch is the one that its changes make. -/
theorem snapshot_perform (p : Pipeline) (w : Stretch) :
    (p.perform w).store.current = w.transitions.foldl Snapshot.apply p.store.current :=
  snapshot_foldl_apply _ _ _

theorem snapshot_fire (s : Store) : s.fire.current = s.current := by
  unfold Store.fire
  split_ifs <;> rfl

/-- A submission that has just started. -/
def started (n : Nat) (source : String) : Submission :=
  ⟨n, source, .compiling, false, .compiling⟩

/-- A start shows the source on a cleared slate and calls the compiler. -/
theorem start_eq (n : Nat) (source : String) :
    Submission.start n source = ⟨started n source, [.source source, .errors .empty],
      some (.compile source), [.moved .idle .compiling]⟩ :=
  rfl

@[simp] theorem latest_submit (p : Pipeline) (source : String) :
    (p.submit source).latest = p.latest + 1 := by
  simp [submit, perform, put, latest]

/-- A submission that starts takes the next number. -/
theorem submission?_submit (p : Pipeline) (source : String) (m : Nat) :
    (p.submit source).submission? m =
      if m = p.latest + 1 then some (started (p.latest + 1) source) else p.submission? m := by
  have happ : submission? { p with submissions := p.submissions ++ [started (p.latest + 1) source] }
      (p.latest + 1) = some (started (p.latest + 1) source) := by
    simp [submission?, latest]
  rw [submit, start_eq, submission?_perform happ]
  by_cases hm : m = p.latest + 1
  · rw [if_pos (by exact hm), if_pos hm]
  · rw [if_neg (by exact hm), if_neg hm]
    unfold submission?
    split_ifs
    · rfl
    · rcases Nat.lt_or_ge (m - 1) p.submissions.length with hlt | hge
      · rw [List.getElem?_append_left hlt]
      · unfold latest at hm
        rw [List.getElem?_eq_none (by simp; omega), List.getElem?_eq_none hge]

/-- It clears the slate, and leaves all else. -/
theorem snapshot_submit (p : Pipeline) (source : String) :
    (p.submit source).store.current =
      { p.store.current with source := source, output := .err .empty } := by
  rw [submit, start_eq, snapshot_perform]
  rfl

theorem calls_submit (p : Pipeline) (source : String) :
    (p.submit source).calls = p.calls ++ [(p.latest + 1, .compile source)] :=
  rfl

/-! ## What every step keeps -/

/-- No step moves the fence. -/
theorem Steps.fence_eq {q : Pipeline} (hs : p.Steps h q) : q.fence = p.fence := by
  cases hs <;> rfl

/-- A pipeline without submissions is sound. -/
theorem sound_new (fence : Bool) (store : Store) : (new fence store).Sound := by
  constructor <;> simp [new, submission?]

/-- Putting back a submission at the stage of its phase keeps a pipeline sound. -/
theorem Sound.put {t : Submission} (hp : p.Sound) (hs : p.submission? t.seq = some s)
    (hst : t.Staged) : (p.put t).Sound where
  numbered m q hq := by
    rw [submission?_put hs] at hq
    split_ifs at hq with hm
    · rw [hm, ← Option.some.inj hq]
    · exact hp.numbered m q hq
  staged m q hq := by
    rw [submission?_put hs] at hq
    split_ifs at hq with hm
    · exact Option.some.inj hq ▸ hst
    · exact hp.staged m q hq

/-- So does a start. -/
theorem Sound.submit (hp : p.Sound) (source : String) : (p.submit source).Sound where
  numbered m q hq := by
    rw [submission?_submit] at hq
    split_ifs at hq with hm
    · rw [hm, ← Option.some.inj hq]
      rfl
    · exact hp.numbered m q hq
  staged m q hq := by
    rw [submission?_submit] at hq
    split_ifs at hq with hm
    · rw [← Option.some.inj hq]
      rfl
    · exact hp.staged m q hq

/-- So does every step. -/
theorem sound_step (hp : p.Sound) (h : Happening) : (p.step h).Sound := by
  have hsteps := steps_step hp h
  generalize p.step h = q at hsteps ⊢
  cases hsteps with
  | submitted => exact hp.submit _
  | @resumed s _ w hs hr =>
    have hg := hr.goes (hp.staged _ _ hs)
    have hput := hp.put (t := w.submission) (hg.seq ▸ hs) hg.staged
    exact ⟨hput.numbered, hput.staged⟩
  | abandoned hs _ => exact hp.put (by exact hs) trivial
  | ticked => exact ⟨hp.numbered, hp.staged⟩
  | noted => exact ⟨hp.numbered, hp.staged⟩
  | unfit _ => exact hp

/-- So does every run. -/
theorem sound_run (hp : p.Sound) (hs : List Happening) : (p.run hs).Sound := by
  induction hs generalizing p with
  | nil => exact hp
  | cons h hs ih => exact ih (sound_step hp h)

/-- Only a start changes which submission is the newest. -/
theorem Steps.latest_eq {q : Pipeline} (hs : p.Steps h q) (hh : h.isStart = false) :
    q.latest = p.latest := by
  cases hs with
  | submitted => cases hh
  | resumed _ _ => exact latest_put p _
  | abandoned _ _ => exact latest_put p _
  | ticked => rfl
  | noted => rfl
  | unfit _ => rfl

/-- An answer that a submission waits for does not leave it as it is. -/
theorem submission?_step_ne {w : Stretch} (hp : p.Sound) (hs : p.submission? s.seq = some s)
    (hr : s.Resumes p.fence p.latest h w) : (p.step h).submission? s.seq ≠ some s := by
  have hg := hr.goes (hp.staged _ _ hs)
  rw [step_eq_perform hs hr, submission?_perform (hg.seq ▸ hs), if_pos hg.seq.symm]
  exact fun he => hg.phase_ne hr.waits (congrArg Submission.phase (Option.some.inj he))

/-- Behind the fence, what happens to an overtaken submission changes nothing that is
shown and calls nothing. -/
theorem Steps.of_overtaken {q : Pipeline} (hp : p.Sound) (hs : p.Steps h q)
    (hf : p.fence = true) {m : Nat} (hm : h.seq? = some m) (hlt : m < p.latest) :
    q.store = p.store ∧ q.calls = p.calls := by
  cases hs with
  | @resumed s _ w hsub hr =>
    have hseq : s.seq = m := Option.some.inj (hr.seq?.symm.trans hm)
    have hstale : s.isStale p.fence p.latest = true := by
      simp [Submission.isStale, hf]
      omega
    have hg := hr.goes (hp.staged _ _ hsub)
    rw [hstale] at hg
    obtain ⟨hts, hcall⟩ := hg.of_stale
    simp [perform, put, hts, hcall]
  | submitted => cases hm
  | abandoned _ _ => exact ⟨rfl, rfl⟩
  | ticked => cases hm
  | noted => cases hm
  | unfit _ => exact ⟨rfl, rfl⟩

/-! ## The submission that started last -/

/-- Only the submission that started last can still change something. -/
def Quiet (p : Pipeline) : Prop :=
  p.fence = true ∨ ∀ m s, p.submission? m = some s → m ≠ p.latest → s.phase.waits = false

/-- What a step can do to the submission that started last. -/
inductive Advances (p : Pipeline) (s : Submission) (h : Happening) (q : Pipeline) : Prop
  | kept (hs : q.submission? p.latest = some s) (hc : q.store.current = p.store.current)
      (hk : q.calls = p.calls)
  | dropped (hh : h = .abandoned p.latest) (hp : s.phase.result? = none)
      (hs : q.submission? p.latest = some { s with phase := .dropped })
      (hc : q.store.current = p.store.current) (hk : q.calls = p.calls)
  | went {s' : Submission} {ts : List Transition} {call : Option Call}
      (hg : s.Goes false h s' ts call) (hs : q.submission? p.latest = some s')
      (hc : q.store.current = ts.foldl Snapshot.apply p.store.current)
      (hk : q.calls = p.calls ++ (call.map (p.latest, ·)).toList)

/-- Older submissions stay quiet in every step but a start. -/
theorem Steps.quiet {q : Pipeline} (hp : p.Sound) (hs : p.Steps h q) (hq : p.Quiet)
    (hh : h.isStart = false) : q.Quiet := by
  rcases hq with hf | hover
  · exact .inl (hs.fence_eq.trans hf)
  · refine .inr fun m s' hs' hm => ?_
    rw [hs.latest_eq hh] at hm
    cases hs with
    | submitted => cases hh
    | @resumed s _ w hsub hr =>
      have hseq := (hr.goes (hp.staged _ _ hsub)).seq
      rw [submission?_perform (hseq ▸ hsub)] at hs'
      split_ifs at hs' with hmw
      · have := hover _ _ hsub (by omega)
        rw [hr.waits] at this
        cases this
      · exact hover m s' hs' hm
    | @abandoned s hsub _ =>
      rw [submission?_put (by exact hsub)] at hs'
      split_ifs at hs'
      · rw [← Option.some.inj hs']
        rfl
      · exact hover m s' hs' hm
    | ticked => exact hover m s' hs' hm
    | noted => exact hover m s' hs' hm
    | unfit _ => exact hover m s' hs' hm

/-- What a step can do to the newest submission, as long as the others are quiet. -/
theorem newest_step (hp : p.Sound) (hq : p.Quiet) (hs : p.submission? p.latest = some s)
    (hh : h.isStart = false) : p.Advances s h (p.step h) := by
  have hsteps := steps_step hp h
  generalize p.step h = q at hsteps
  cases hsteps with
  | submitted => cases hh
  | @resumed o _ w ho hr =>
    have hg := hr.goes (hp.staged _ _ ho)
    have hsub := submission?_perform (p := p) (w := w) (hg.seq ▸ ho) p.latest
    by_cases hn : o.seq = p.latest
    · -- the newest submission goes on: it has not been overtaken
      rw [hn] at ho
      obtain rfl := Option.some.inj (hs.symm.trans ho)
      have hfresh : s.isStale p.fence p.latest = false := by simp [Submission.isStale, hn]
      rw [hfresh] at hg
      rw [hg.seq, hn, if_pos rfl] at hsub
      refine .went hg hsub (snapshot_perform p w) ?_
      rw [← hn, ← hg.seq]
      rfl
    · -- another one goes on: behind the fence it does nothing, and else it has ended
      rw [hg.seq, if_neg (Ne.symm hn)] at hsub
      rcases hq with hf | hover
      · have hlt : o.seq < p.latest := by
          have := le_latest_of_submission? ho
          omega
        obtain ⟨hst, hk⟩ := Steps.of_overtaken hp (.resumed ho hr) hf hr.seq? hlt
        exact .kept (hsub.trans hs) (congrArg Store.current hst) hk
      · have := hover _ _ ho hn
        rw [hr.waits] at this
        cases this
  | @abandoned o ho hph =>
    have hsub := submission?_put (p := p) (t := { o with phase := .dropped }) (by exact ho)
      p.latest
    by_cases hn : o.seq = p.latest
    · rw [hn] at ho
      obtain rfl := Option.some.inj (hs.symm.trans ho)
      exact .dropped (by rw [hn]) hph (by simpa [hn] using hsub) rfl rfl
    · exact .kept (hsub.trans (by simpa [Ne.symm hn] using hs)) rfl rfl
  | ticked => exact .kept hs (snapshot_fire _) rfl
  | noted => exact .kept hs rfl rfl
  | unfit _ => exact .kept hs rfl rfl

end Pipeline

end LiveScene.Live
