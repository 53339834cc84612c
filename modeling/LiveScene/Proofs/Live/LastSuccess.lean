import LiveScene.Proofs.Live.Changes

/-!
# The last success and its timing

Two changes make a success: the output of a result of the renderer, which
becomes the last success, and its timing. They stand in one step, and nothing
else changes either (`Submission.Goes.result_or_apart`), so between steps the
two belong to one result (`Snapshot.Succeeds`): the last one whose output was
shown, which is the last of `Pipeline.applied`.

`Pipeline.figures_with_timing` says this of every run from the first snapshot.
-/

namespace LiveScene

/-- The timing that a result leaves: none if it is `null`. -/
def Scene.RenderResult.timing? (r : Scene.RenderResult) : Option Json :=
  if r.perf.isNull then none else some r.perf

namespace Live

open Diagnostics Scene Sandbox Compiler

namespace Transition

/-- Whether a change shows figures. -/
def isFigures : Transition → Bool
  | output (.ok _) => true
  | source _ | output (.err _) | errors _ | debug _ | perf _ => false

/-- Whether a change leaves the last success and its timing as they are, and shows no
figures. -/
def isApart : Transition → Bool
  | output (.ok _) | perf _ => false
  | source _ | output (.err _) | errors _ | debug _ => true

/-- The changes that show a result. -/
def ofResult (r : RenderResult) : List Transition := [output (.ok r.figures), perf r.perf]

end Transition

/-- The last success and its timing are those of a result, or of the first snapshot if
there was none, and figures that are shown are the last success. -/
structure Snapshot.Succeeds (x : Snapshot) (last : Option RenderResult) : Prop where
  prevOk : x.prevOk = last.elim Snapshot.default.prevOk RenderResult.figures
  perf : x.perf = last.elim Snapshot.default.perf RenderResult.timing?
  shown : ∀ figures, x.output = .ok figures → figures = x.prevOk

namespace Snapshot

variable {x : Snapshot} {last : Option RenderResult} {ts : List Transition}

/-- There is no success at first. -/
theorem succeeds_default : default.Succeeds none where
  prevOk := rfl
  perf := rfl
  shown _ hx := (Output.ok.inj hx).symm

/-- Showing a result makes it the last success. -/
theorem succeeds_ofResult (x : Snapshot) (r : RenderResult) :
    ((Transition.ofResult r).foldl apply x).Succeeds (some r) where
  prevOk := rfl
  perf := rfl
  shown _ hx := (Output.ok.inj hx).symm

/-- A change apart from results keeps the last success. -/
theorem Succeeds.apply {t : Transition} (hx : x.Succeeds last) (ht : t.isApart = true) :
    (x.apply t).Succeeds last := by
  match t with
  | .source _ | .debug _ => exact ⟨hx.prevOk, hx.perf, hx.shown⟩
  | .errors _ | .output (.err _) => exact ⟨hx.prevOk, hx.perf, nofun⟩
  | .output (.ok _) | .perf _ => cases ht

theorem Succeeds.foldl_apply (hx : x.Succeeds last) (hts : ∀ t ∈ ts, t.isApart = true) :
    (ts.foldl Snapshot.apply x).Succeeds last := by
  induction ts generalizing x with
  | nil => exact hx
  | cons t ts ih => exact ih (hx.apply (hts t (by simp))) fun u hu => hts u (by simp [hu])

end Snapshot

/-- An answer shows the result that it is and makes the submission ready, or it leaves the
last success and its timing as they are. -/
theorem Submission.Goes.result_or_apart {s s' : Submission} {stale : Bool} {h : Happening}
    {ts : List Transition} {call : Option Call} (hg : s.Goes stale h s' ts call) :
    (∃ r, h = .rendered s.seq (.ok r) ∧ ts = Transition.ofResult r ∧
      s' = s.reported .ready true) ∨ ∀ t ∈ ts, t.isApart = true := by
  cases hg with
  | rendered => exact .inl ⟨_, rfl, rfl, rfl⟩
  | _ => exact .inr (by simp [Transition.isApart])

namespace Pipeline

variable {p : Pipeline} {h : Happening} {last : Option RenderResult}

/-- The result whose output is shown in a step, if there is one. -/
def applied? (p : Pipeline) (h : Happening) : Option RenderResult :=
  match h with
  | .rendered _ (.ok r) => if (p.changesIn h).any (·.2.isFigures) then some r else none
  | _ => none

/-- The results whose outputs are shown in a run, in order. -/
def applied (p : Pipeline) : List Happening → List RenderResult
  | [] => []
  | h :: hs => (p.applied? h).toList ++ (p.step h).applied hs

/-- A step whose changes are all apart from results shows none. -/
theorem applied?_eq_none (hc : ∀ c ∈ p.changesIn h, c.2.isApart = true) :
    p.applied? h = none := by
  unfold applied?
  split
  · refine if_neg fun hany => ?_
    obtain ⟨⟨n, t⟩, hmem, ht⟩ := List.any_eq_true.1 hany
    have hapart := hc _ hmem
    match t with
    | .output (.ok _) => cases hapart
    | .output (.err _) | .source _ | .errors _ | .debug _ | .perf _ => cases ht
  · rfl

/-- A step shows a result and makes its submission ready, or it leaves the last success and
its timing as they are. -/
theorem result_or_apart_step (hp : p.Sound) (h : Happening) :
    (∃ n r, h = .rendered n (.ok r) ∧ p.applied? h = some r ∧
      p.changesIn h = (Transition.ofResult r).map (n, ·) ∧
      (p.step h).result? n = some (.ok ⟨n, .ready, true⟩)) ∨
    (p.applied? h = none ∧ ∀ c ∈ p.changesIn h, c.2.isApart = true) := by
  -- which result is shown can be read off the changes
  suffices hchanges : (∃ n r, h = .rendered n (.ok r) ∧
      p.changesIn h = (Transition.ofResult r).map (n, ·) ∧
      (p.step h).result? n = some (.ok ⟨n, .ready, true⟩)) ∨
      ∀ c ∈ p.changesIn h, c.2.isApart = true by
    rcases hchanges with ⟨n, r, rfl, hc, hready⟩ | hapart
    · refine .inl ⟨n, r, rfl, ?_, hc, hready⟩
      simp [applied?, hc, Transition.ofResult, Transition.isFigures]
    · exact .inr ⟨applied?_eq_none hapart, hapart⟩
  have hacts := acts_step hp h
  unfold changesIn
  generalize p.step h = q at hacts ⊢
  generalize p.stretch? h = o at hacts ⊢
  cases hacts with
  | started => exact .inr (by simp [start_eq, Transition.isApart])
  | @resumed s _ w hs hr =>
    have hg := hr.goes (hp.staged _ _ hs)
    have hsub := submission?_perform (p := p) (w := w) (hg.seq ▸ hs) s.seq
    rw [if_pos hg.seq.symm] at hsub
    rcases hg.result_or_apart with ⟨r, rfl, hts, hready⟩ | hapart
    · refine .inl ⟨s.seq, r, rfl, by simp [hts, hg.seq], ?_⟩
      rw [result?_eq hsub, hready]
      rfl
    · exact .inr (by simpa using hapart)
  | idle => exact .inr (by simp)

/-- After a step the last success is the result it shows, or the one before. -/
theorem succeeds_step (hp : p.Sound) (hx : p.store.current.Succeeds last) (h : Happening) :
    (p.step h).store.current.Succeeds ((p.applied? h).or last) := by
  rw [current_step hp h]
  rcases result_or_apart_step hp h with ⟨n, r, -, happlied, hc, -⟩ | ⟨happlied, hapart⟩
  · rw [happlied, hc]
    exact Snapshot.succeeds_ofResult _ r
  · rw [happlied, Option.none_or]
    exact hx.foldl_apply (List.forall_mem_map.2 hapart)

/-- After a run the last success is the last result that it shows, or the one before. -/
theorem succeeds_run (hp : p.Sound) (hx : p.store.current.Succeeds last)
    (hs : List Happening) :
    (p.run hs).store.current.Succeeds ((p.applied hs).getLast?.or last) := by
  induction hs generalizing p last with
  | nil => exact hx
  | cons h hs ih =>
    have hlast : (p.applied? h).toList.getLast? = p.applied? h := by cases p.applied? h <;> rfl
    rw [applied, List.getLast?_append, hlast, Option.or_assoc]
    exact ih (sound_step hp h) (succeeds_step hp hx h)

/-- The last success and its timing belong together. Whatever submissions start over a store
at the first snapshot, resume with any answers and are dropped, in any order, with the fence
or without: both are those of the last result whose output was shown, or of the first
snapshot if there was none, and figures that are shown are the last success. A step changes
them only by showing the result that a submission has waited for, which is then ready. -/
theorem figures_with_timing (fence : Bool) (capacity : Nat) (hs : List Happening) :
    let start := new fence (.ofInitial .default capacity)
    let p := start.run hs
    p.store.current.Succeeds (start.applied hs).getLast? ∧
      ∀ h, let q := p.step h
        (∃ n r, h = .rendered n (.ok r) ∧ p.applied? h = some r ∧
          (n, .output (.ok r.figures)) ∈ p.changesIn h ∧
          q.result? n = some (.ok ⟨n, .ready, true⟩)) ∨
        (p.applied? h = none ∧ (∀ n figures, (n, .output (.ok figures)) ∉ p.changesIn h) ∧
          q.store.current.prevOk = p.store.current.prevOk ∧
          q.store.current.perf = p.store.current.perf) := by
  intro start p
  have hstart : start.Sound := sound_new fence _
  have hp : p.Sound := sound_run hstart hs
  have hx : p.store.current.Succeeds (start.applied hs).getLast? := by
    have hrun := succeeds_run hstart Snapshot.succeeds_default hs
    rwa [Option.or_none] at hrun
  refine ⟨hx, fun h => ?_⟩
  rcases result_or_apart_step hp h with ⟨n, r, hh, happlied, hc, hready⟩ | ⟨happlied, hapart⟩
  · refine .inl ⟨n, r, hh, happlied, ?_, hready⟩
    rw [hc]
    exact List.mem_map_of_mem (by simp [Transition.ofResult])
  · have hq := succeeds_step hp hx h
    rw [happlied, Option.none_or] at hq
    refine .inr ⟨happlied, fun n figures hmem => ?_, hq.prevOk.trans hx.prevOk.symm,
      hq.perf.trans hx.perf.symm⟩
    cases hapart _ hmem

end Pipeline

end Live

end LiveScene
