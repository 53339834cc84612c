import LiveScene.Proofs.Live.Steps

/-!
# The fence

Behind the fence only the submission that started last changes what is shown.
`Pipeline.Shows` is what holds from its start on: the source shown is its own,
and the output is the cleared slate until it has ended. Every step that is not
another start keeps this (`Pipeline.Shows.step`), the step that ends it shows
its final output (`Pipeline.Shows.output_of_end`), and no step after that
changes the snapshot (`Pipeline.Shows.frozen`).

`Pipeline.fenced` puts this together for all interleavings of submissions,
answers, and submissions that nobody waits for any more.
-/

namespace LiveScene.Live

open Diagnostics Scene Sandbox Compiler

namespace Pipeline

variable {p : Pipeline} {h : Happening} {source : String}

/-- The fence stays as it is. -/
theorem fence_run (hp : p.Sound) (hs : List Happening) : (p.run hs).fence = p.fence := by
  induction hs generalizing p with
  | nil => rfl
  | cons h hs ih => exact (ih (sound_step hp h)).trans (steps_step hp h).fence_eq

/-- The number of the newest submission is the number of those that have started. -/
theorem latest_run (hp : p.Sound) (hs : List Happening) :
    (p.run hs).latest = p.latest + hs.countP Happening.isStart := by
  induction hs generalizing p with
  | nil => rfl
  | cons h hs ih =>
    have hrun : p.run (h :: hs) = (p.step h).run hs := rfl
    rw [hrun, ih (sound_step hp h), List.countP_cons]
    cases hh : h.isStart with
    | false =>
      rw [(steps_step hp h).latest_eq hh]
      simp
    | true =>
      cases h with
      | submitted source =>
        have hsub : (p.step (.submitted source)).latest = p.latest + 1 := latest_submit p source
        rw [hsub]
        simp
        omega
      | _ => cases hh

/-- In a run of `p` it is the happening `h` that ends the submission of a number. -/
def EndedBy (p : Pipeline) (hs : List Happening) (n : Nat) (h : Happening) : Prop :=
  ∃ before after, hs = before ++ h :: after ∧ (p.run before).result? n = none ∧
    ((p.run before).step h).result? n ≠ none

/-- A submission that has ended in a run was ended by a happening in it. -/
theorem exists_endedBy {n : Nat} {hs : List Happening} (h0 : p.result? n = none)
    (h1 : (p.run hs).result? n ≠ none) : ∃ h, p.EndedBy hs n h := by
  induction hs generalizing p with
  | nil => exact (h1 h0).elim
  | cons h hs ih =>
    by_cases hstep : (p.step h).result? n = none
    · obtain ⟨k, before, after, rfl, hb, ha⟩ := ih hstep h1
      exact ⟨k, h :: before, after, rfl, hb, ha⟩
    · exact ⟨h, [], hs, rfl, h0, hstep⟩

/-- The submission that started last is one of `source`, and what is shown is the source
and, until it has ended, a cleared slate. -/
structure Shows (p : Pipeline) (source : String) : Prop where
  sound : p.Sound
  quiet : p.Quiet
  newest : ∃ s, p.submission? p.latest = some s ∧ s.source = source
  source_eq : p.store.current.source = source
  cleared : p.result? p.latest = none → p.store.current.output = .err .empty

/-- A submission that starts behind the fence shows its source and a cleared slate. -/
theorem shows_submit (hp : p.Sound) (hf : p.fence = true) (source : String) :
    (p.submit source).Shows source where
  sound := hp.submit source
  quiet := .inl hf
  newest := ⟨started (p.latest + 1) source, by simp [submission?_submit], rfl⟩
  source_eq := by rw [snapshot_submit]
  cleared _ := by rw [snapshot_submit]

/-- No step but another start changes what the submission shows until it ends. -/
theorem Shows.step (hp : p.Shows source) (hh : h.isStart = false) :
    (p.step h).Shows source := by
  obtain ⟨s, hs, rfl⟩ := hp.newest
  have hsteps := steps_step hp.sound h
  have hlatest := hsteps.latest_eq hh
  have hsound := sound_step hp.sound h
  have hquiet := hsteps.quiet hp.sound hp.quiet hh
  cases newest_step hp.sound hp.quiet hs hh with
  | kept hs' hc _ =>
    refine ⟨hsound, hquiet, ⟨s, hlatest ▸ hs', rfl⟩, hc ▸ hp.source_eq, fun hr => ?_⟩
    rw [hlatest, result?_eq hs', ← result?_eq hs] at hr
    exact hc ▸ hp.cleared hr
  | dropped _ hph hs' hc _ =>
    refine ⟨hsound, hquiet, ⟨{ s with phase := .dropped }, hlatest ▸ hs', rfl⟩,
      hc ▸ hp.source_eq, fun _ => ?_⟩
    exact hc ▸ hp.cleared ((result?_eq hs).trans hph)
  | went hg hs' hc _ =>
    refine ⟨hsound, hquiet, ⟨_, hlatest ▸ hs', hg.source⟩, ?_, fun hr => ?_⟩
    · rw [hc, hg.snapshot_source]
      exact hp.source_eq
    · rw [hlatest, result?_eq hs'] at hr
      rw [hc, hg.snapshot_output, hg.finalOutput?_eq_none hr, Option.getD_none]
      exact hp.cleared ((result?_eq hs).trans (Phase.result?_eq_none hg.waits))

/-- The step that ends the newest submission is an answer to it, and shows its final output
or, where there is none, the cleared slate. -/
theorem Shows.output_of_end (hp : p.Shows source) (hh : h.isStart = false)
    (h0 : p.result? p.latest = none) (h1 : (p.step h).result? p.latest ≠ none) :
    h.seq? = some p.latest ∧
      (p.step h).store.current.output = (h.finalOutput? source).getD (.err .empty) := by
  obtain ⟨s, hs, rfl⟩ := hp.newest
  cases newest_step hp.sound hp.quiet hs hh with
  | kept hs' _ _ =>
    rw [result?_eq hs', ← result?_eq hs] at h1
    exact (h1 h0).elim
  | dropped _ _ hs' _ _ =>
    rw [result?_eq hs'] at h1
    exact (h1 rfl).elim
  | went hg _ hc _ =>
    rw [hc, hg.snapshot_output, hp.cleared h0, ← hp.sound.numbered _ _ hs]
    exact ⟨hg.seq?, rfl⟩

/-- Once the newest submission has ended nothing changes what is shown. -/
theorem Shows.frozen (hp : p.Shows source) (hh : h.isStart = false)
    (h0 : p.result? p.latest ≠ none) :
    (p.step h).result? p.latest = p.result? p.latest ∧
      (p.step h).store.current = p.store.current := by
  obtain ⟨s, hs, rfl⟩ := hp.newest
  cases newest_step hp.sound hp.quiet hs hh with
  | kept hs' hc _ => exact ⟨by rw [result?_eq hs', result?_eq hs], hc⟩
  | dropped _ hph _ _ _ => exact (h0 ((result?_eq hs).trans hph)).elim
  | went hg _ _ _ =>
    exact (h0 ((result?_eq hs).trans (Phase.result?_eq_none hg.waits))).elim

/-- So it is for a run without another start. -/
theorem Shows.run {hs : List Happening} (hp : p.Shows source)
    (hhs : ∀ h ∈ hs, h.isStart = false) :
    (p.run hs).Shows source ∧ (p.run hs).latest = p.latest := by
  induction hs generalizing p with
  | nil => exact ⟨hp, rfl⟩
  | cons h hs ih =>
    have hh := hhs h (by simp)
    obtain ⟨hshows, hlatest⟩ := ih (hp.step hh) fun k hk => hhs k (by simp [hk])
    exact ⟨hshows, hlatest.trans ((steps_step hp.sound h).latest_eq hh)⟩

/-- Once the submission has ended, no run without another start changes the snapshot. -/
theorem Shows.frozen_run {hs : List Happening} (hp : p.Shows source)
    (hhs : ∀ h ∈ hs, h.isStart = false) (h0 : p.result? p.latest ≠ none) :
    (p.run hs).store.current = p.store.current := by
  induction hs generalizing p with
  | nil => rfl
  | cons h hs ih =>
    have hh := hhs h (by simp)
    have hlatest := (steps_step hp.sound h).latest_eq hh
    obtain ⟨hres, hc⟩ := hp.frozen hh h0
    rw [← hres, ← hlatest] at h0
    exact (ih (hp.step hh) (fun k hk => hhs k (by simp [hk])) h0).trans hc

/-- It is an answer to the newest submission that ends it, and the output shown is the
final one of this answer. -/
theorem Shows.output_of_endedBy {hs : List Happening} (hp : p.Shows source)
    (hhs : ∀ h ∈ hs, h.isStart = false) (hend : p.EndedBy hs p.latest h) :
    h.seq? = some p.latest ∧
      (p.run hs).store.current.output = (h.finalOutput? source).getD (.err .empty) := by
  obtain ⟨before, after, rfl, h0, h1⟩ := hend
  have hh : h.isStart = false := hhs h (by simp)
  have hbefore : ∀ k ∈ before, k.isStart = false := fun k hk => hhs k (by simp [hk])
  have hafter : ∀ k ∈ after, k.isStart = false := fun k hk => hhs k (by simp [hk])
  obtain ⟨hb, hlatest⟩ := hp.run hbefore
  have hstep : ((p.run before).step h).latest = p.latest :=
    ((steps_step hb.sound h).latest_eq hh).trans hlatest
  rw [← hlatest] at h0 h1
  rw [run_append, show (p.run before).run (h :: after) = ((p.run before).step h).run after from rfl,
    (hb.step hh).frozen_run hafter (by rw [hstep, ← hlatest]; exact h1)]
  exact hlatest ▸ hb.output_of_end hh h0 h1

/-- What is shown as long as no other submission starts. -/
theorem shown_after_submit {hs : List Happening} (hp : p.Sound) (hf : p.fence = true)
    (source : String) (hhs : ∀ h ∈ hs, h.isStart = false) :
    let q := (p.submit source).run hs
    q.store.current.source = source ∧
      (q.result? q.latest = none → q.store.current.output = .err .empty) ∧
      (q.result? q.latest ≠ none → ∃ h, (p.submit source).EndedBy hs q.latest h ∧
        h.seq? = some q.latest ∧
        q.store.current.output = (h.finalOutput? source).getD (.err .empty)) := by
  intro q
  have hfirst := shows_submit hp hf source
  obtain ⟨hshows, hlatest⟩ := hfirst.run hhs
  refine ⟨hshows.source_eq, hshows.cleared, fun h1 => ?_⟩
  have hsub : (p.submit source).submission? (p.submit source).latest =
      some (started (p.latest + 1) source) := by simp [submission?_submit]
  rw [show q.latest = _ from hlatest] at h1 ⊢
  obtain ⟨h, hend⟩ := exists_endedBy (result?_eq hsub) h1
  exact ⟨h, hend, hfirst.output_of_endedBy hhs hend⟩

/-- The fence is safe. From any store on, whatever submissions start, resume with any
answers and are dropped, in any order: once a submission has started nothing that happens
to an earlier one changes the store or calls a service. So the source shown is always that
of the submission that started last, and the output is its cleared slate or, once it has
ended, the final output of the answer that ended it. -/
theorem fenced (store : Store) (hs : List Happening) :
    let p := (new true store).run hs
    p.latest = hs.countP Happening.isStart ∧
    (∀ more h m, h.seq? = some m → m < p.latest →
      ((p.run more).step h).store = (p.run more).store ∧
        ((p.run more).step h).calls = (p.run more).calls) ∧
    ∀ before source after, hs = before ++ .submitted source :: after →
      (∀ h ∈ after, h.isStart = false) →
      p.store.current.source = source ∧
        (p.result? p.latest = none → p.store.current.output = .err .empty) ∧
        (p.result? p.latest ≠ none →
          ∃ h, ((new true store).run (before ++ [.submitted source])).EndedBy after p.latest h ∧
            h.seq? = some p.latest ∧
            p.store.current.output = (h.finalOutput? source).getD (.err .empty)) := by
  intro p
  have hnew := sound_new true store
  have hp : p.Sound := sound_run hnew hs
  have hf : p.fence = true := fence_run hnew hs
  refine ⟨?_, fun more h m hm hlt => ?_, ?_⟩
  · exact (latest_run hnew hs).trans (Nat.zero_add _)
  · have hle := latest_run hp more
    exact (steps_step (sound_run hp more) h).of_overtaken (sound_run hp more)
      ((fence_run hp more).trans hf) hm (by omega)
  · rintro before source after rfl hafter
    have hrun : p = (((new true store).run before).submit source).run after := by
      simp only [p, run_append]
      rfl
    have hstart : (new true store).run (before ++ [.submitted source]) =
        ((new true store).run before).submit source := by
      rw [run_append]
      rfl
    rw [hrun, hstart]
    exact shown_after_submit (sound_run hnew before) (fence_run hnew before) source hafter

/-- A submission that is overtaken while it compiles ends without a change. -/
example :
    let p := (new true (.ofInitial .default 4)).run
      [.submitted "1", .submitted "2", .compiled 1 (.ok (.clean "1"))]
    p.result? 1 = some (.ok ⟨1, .superseded, false⟩) ∧ p.store.current.source = "2" :=
  ⟨rfl, rfl⟩

end Pipeline

end LiveScene.Live
