import LiveScene.Proofs.Live.Notices
import LiveScene.Proofs.Live.Order

/-!
# What submissions change

`Pipeline.stretch?` is what a submission does in a step, and `Pipeline.Acts`
lists the steps by it: a submission starts, one resumes, or none does anything
and the store goes on showing what it showed (`Pipeline.acts_step`).

`Pipeline.changes` are the changes of a run in order, each under the number of
the submission that makes it. There are no others: the snapshots that the store
goes through are those that these changes make one after another
(`Pipeline.snapshots_run`).
-/

namespace LiveScene.Live

open Diagnostics Scene Sandbox Compiler

/-- Changes lead through the snapshots that they make one after another. -/
theorem Store.snapshots_foldl_apply (ts : List Transition) (timed : Bool) (s : Store) :
    (ts.foldl (fun st t => st.apply timed t) s).snapshots =
      s.history ++ ts.scanl Snapshot.apply s.current := by
  induction ts generalizing s with
  | nil => rfl
  | cons t ts ih =>
    have hhistory : (s.apply timed t).history = s.history ++ [s.current] := by
      simp only [Store.apply, announce]
      split_ifs <;> rfl
    have hcurrent : (s.apply timed t).current = s.current.apply t := by
      simp only [Store.apply, announce]
      split_ifs <;> rfl
    rw [List.foldl_cons, ih, hhistory, hcurrent, List.scanl_cons, List.append_assoc]
    rfl

/-- Sending a notice changes no snapshot. -/
theorem Store.snapshots_fire (s : Store) : s.fire.snapshots = s.snapshots := by
  unfold Store.fire
  split_ifs <;> rfl

/-- The changes that a stretch makes for the submission of a number. -/
def Stretch.changesOf (w : Stretch) (n : Nat) : List Transition :=
  if w.submission.seq = n then w.transitions else []

@[simp] theorem Stretch.changesOf_seq (w : Stretch) :
    w.changesOf w.submission.seq = w.transitions :=
  if_pos rfl

/-- A stretch makes no change for another submission. -/
theorem Stretch.changesOf_of_ne {w : Stretch} {n : Nat} (hn : n ≠ w.submission.seq) :
    w.changesOf n = [] :=
  if_neg (Ne.symm hn)

namespace Submission

variable {s : Submission} {fence : Bool} {latest : Nat} {h : Happening} {w : Stretch}

/-- What a submission does with an answer of the kind that it waits for. -/
def stretch? (s : Submission) (fence : Bool) (latest : Nat) (h : Happening) : Option Stretch :=
  match s.phase, h with
  | .compiling, .compiled _ a => some (s.compiled fence latest a)
  | .executing code, .executed _ a => some (s.executed fence latest code a)
  | .rendering _, .rendered _ a => some (s.rendered fence latest a)
  | _, _ => none

/-- What a submission does with an answer is what it resumes with. -/
theorem stretch?_eq_some (hn : h.seq? = some s.seq) :
    s.stretch? fence latest h = some w ↔ s.Resumes fence latest h w := by
  constructor
  · intro hw
    unfold stretch? at hw
    split at hw
    · rename_i hp
      cases hn
      exact Option.some.inj hw ▸ .compiled hp _
    · rename_i hp
      cases hn
      exact Option.some.inj hw ▸ .executed hp _
    · rename_i hp
      cases hn
      exact Option.some.inj hw ▸ .rendered hp _
    · cases hw
  · rintro (⟨hp, a⟩ | ⟨hp, a⟩ | ⟨hp, a⟩) <;> simp [stretch?, hp]

end Submission

namespace Pipeline

variable {p q : Pipeline} {s s' : Submission} {h : Happening} {w : Stretch} {n : Nat}

/-- What a submission does in a step, if one starts or gets an answer that it waits for. -/
def stretch? (p : Pipeline) (h : Happening) : Option Stretch :=
  match h with
  | .submitted source => some (Submission.start (p.latest + 1) source)
  | _ => do (← p.submission? (← h.seq?)).stretch? p.fence p.latest h

/-- The changes of a step, under the number of the submission that makes them. -/
def changesIn (p : Pipeline) (h : Happening) : List (Nat × Transition) :=
  match p.stretch? h with
  | some w => w.transitions.map (w.submission.seq, ·)
  | none => []

/-- The changes of a run, in order. -/
def changes (p : Pipeline) : List Happening → List (Nat × Transition)
  | [] => []
  | h :: hs => p.changesIn h ++ (p.step h).changes hs

/-- The changes that the submission of a number makes in a run. -/
def changesOf (p : Pipeline) (hs : List Happening) (n : Nat) : List Transition :=
  (p.changes hs).filterMap fun (m, t) => if m = n then some t else none

/-! ## The steps by what a submission does -/

/-- The steps of a pipeline: a submission starts or resumes, or nothing is done and at most
a submission is dropped. -/
inductive Acts (p : Pipeline) : Happening → Option Stretch → Pipeline → Prop
  | started {source : String} :
      Acts p (.submitted source) (some (Submission.start (p.latest + 1) source)) (p.submit source)
  | resumed {s : Submission} {h : Happening} {w : Stretch} (hs : p.submission? s.seq = some s)
      (hr : s.Resumes p.fence p.latest h w) : Acts p h (some w) (p.perform w)
  | idle {h : Happening} {q : Pipeline} (hh : h.isStart = false)
      (hstore : q.store.snapshots = p.store.snapshots)
      (hsubs : ∀ n, q.submission? n = p.submission? n ∨
        ∃ s, p.submission? n = some s ∧ s.phase.result? = none ∧
          q.submission? n = some { s with phase := .dropped }) : Acts p h none q

/-- The stretch of a step is that of the submission that resumes. -/
theorem stretch?_of_resumes (hs : p.submission? s.seq = some s)
    (hr : s.Resumes p.fence p.latest h w) : p.stretch? h = some w := by
  have hw := (Submission.stretch?_eq_some hr.seq?).2 hr
  cases hr <;> simpa [stretch?, Happening.seq?, hs] using hw

/-- In a step that starts nothing, a stretch is one of a submission that resumes. -/
theorem resumes_of_stretch? (hp : p.Sound) (hh : h.isStart = false) (hw : p.stretch? h = some w) :
    ∃ s, p.submission? s.seq = some s ∧ s.Resumes p.fence p.latest h w := by
  have hbind : (h.seq?.bind p.submission?).bind (·.stretch? p.fence p.latest h) = some w := by
    cases h with
    | submitted => cases hh
    | _ => exact hw
  obtain ⟨s, hsub, hstretch⟩ := Option.bind_eq_some_iff.1 hbind
  obtain ⟨n, hn, hs⟩ := Option.bind_eq_some_iff.1 hsub
  obtain rfl := hp.numbered n s hs
  exact ⟨s, hs, (Submission.stretch?_eq_some hn).1 hstretch⟩

/-- Every step is one of the list, with what a submission does in it. -/
theorem acts_step (hp : p.Sound) (h : Happening) : p.Acts h (p.stretch? h) (p.step h) := by
  have hsteps := steps_step hp h
  cases hw : p.stretch? h with
  | some w =>
    cases hh : h.isStart with
    | false =>
      obtain ⟨s, hs, hr⟩ := resumes_of_stretch? hp hh hw
      exact step_eq_perform hs hr ▸ .resumed hs hr
    | true =>
      cases h with
      | submitted source => exact Option.some.inj hw ▸ .started
      | _ => cases hh
  | none =>
    generalize p.step h = q at hsteps ⊢
    cases hsteps with
    | submitted => cases hw
    | resumed hs hr => cases hw.symm.trans (stretch?_of_resumes hs hr)
    | @abandoned s hs hph =>
      refine .idle rfl rfl fun n => ?_
      rw [submission?_put (by exact hs)]
      split_ifs with hn
      · exact .inr ⟨s, hn ▸ hs, hph, rfl⟩
      · exact .inl rfl
    | ticked => exact .idle rfl (Store.snapshots_fire _) fun _ => .inl rfl
    | noted => exact .idle rfl rfl fun _ => .inl rfl
    | unfit hh => exact .idle hh rfl fun _ => .inl rfl

/-! ## The changes of a run -/

/-- The changes of a run come one after another. -/
theorem changes_append (p : Pipeline) (hs more : List Happening) :
    p.changes (hs ++ more) = p.changes hs ++ (p.run hs).changes more := by
  induction hs generalizing p with
  | nil => rfl
  | cons h hs ih =>
    have hrun : p.run (h :: hs) = (p.step h).run hs := rfl
    rw [List.cons_append, changes, changes, ih, hrun, List.append_assoc]

/-- A step adds the changes of its stretch to those of its submission. -/
theorem changesOf_snoc (p : Pipeline) (hs : List Happening) (h : Happening) (n : Nat) :
    p.changesOf (hs ++ [h]) n =
      p.changesOf hs n ++ ((p.run hs).stretch? h).elim [] (·.changesOf n) := by
  rw [changesOf, changes_append, List.filterMap_append, changes, changes, List.append_nil,
    changesIn, ← changesOf]
  congr 1
  cases (p.run hs).stretch? h with
  | none => rfl
  | some w =>
    by_cases hn : w.submission.seq = n <;> simp [Stretch.changesOf, hn, List.filterMap_map]

/-- A step leads through the snapshots that its changes make. -/
theorem Acts.snapshots (ha : p.Acts h (p.stretch? h) q) :
    q.store.snapshots =
      p.store.history ++ ((p.changesIn h).map Prod.snd).scanl Snapshot.apply p.store.current := by
  have hperform (p : Pipeline) (w : Stretch) : (p.perform w).store.snapshots =
      p.store.history ++ ((w.transitions.map (w.submission.seq, ·)).map Prod.snd).scanl
        Snapshot.apply p.store.current := by
    rw [List.map_map, show Prod.snd ∘ (w.submission.seq, ·) = id from rfl, List.map_id]
    exact Store.snapshots_foldl_apply _ _ _
  unfold changesIn
  generalize p.stretch? h = o at ha ⊢
  cases ha with
  | started => exact hperform _ _
  | resumed => exact hperform _ _
  | idle _ hstore => exact hstore

/-- The snapshot after a step is the one that its changes make. -/
theorem current_step (hp : p.Sound) (h : Happening) :
    (p.step h).store.current =
      ((p.changesIn h).map Prod.snd).foldl Snapshot.apply p.store.current := by
  have hlast := congrArg List.getLast? (acts_step hp h).snapshots
  simpa [Store.snapshots, List.getLast?_append, List.getLast?_scanl] using hlast

/-- The snapshots that a store goes through in a run are those that the changes of the
submissions make, one after another. -/
theorem snapshots_run (hp : p.Sound) (hs : List Happening) :
    (p.run hs).store.snapshots =
      p.store.history ++ ((p.changes hs).map Prod.snd).scanl Snapshot.apply p.store.current := by
  induction hs generalizing p with
  | nil => rfl
  | cons h hs ih =>
    have hstep := (acts_step hp h).snapshots
    have htail := List.cons_head?_tail
      (List.head?_scanl (f := Snapshot.apply) (b := (p.step h).store.current)
        (l := ((p.step h).changes hs).map Prod.snd))
    rw [show p.run (h :: hs) = (p.step h).run hs from rfl, ih (sound_step hp h), changes,
      List.map_append, List.scanl_append, ← current_step hp h, ← List.append_assoc, ← hstep,
      Store.snapshots, List.append_assoc, List.singleton_append, htail]

end Pipeline

end LiveScene.Live
