import LiveScene.Proofs.Sandbox.Accounts

/-!
# After a shutdown

A pool that was shut down is closed, keeps no idle context and lets nobody
wait, and no step changes that (`PoolRun.ShutDown`). So nobody gets a context
any more, and those who are refused stay refused.

A request that has its context is on its own: what an event makes of it,
`Request.next`, depends on the request and the settings alone, not on the
pool (`PoolRun.getElem?_step`). It therefore ends as it would have ended
without the shutdown. `PoolRun.shut_for_good` puts this together.
-/

namespace LiveScene.Sandbox

/-- The request whose execution an event can end. -/
def PoolEvent.ends? : PoolEvent → Option Nat
  | .answer r | .lost r | .timeout r | .drop r => some r
  | .request _ | .grant _ _ | .shutdown => none

/-- How an event of that kind ends the execution of code in a context. There is no answer
if the code does not end. -/
def PoolEvent.ending? (config : Config) (c : Context) (code : String) :
    PoolEvent → Option RequestEnd
  | .answer _ => (c.evaluate config code).outcome.map (.answered c.id)
  | .lost _ => some (.failed (.contextLost (toString c.id)))
  | .timeout _ => some (.failed (.timeout config.timeoutMs))
  | .drop _ => some .dropped
  | .request _ | .grant _ _ | .shutdown => none

namespace Request

/-- What an event makes of request `r` once it does not wait any more. -/
def next (config : Config) (r : Nat) (q : Request) (e : PoolEvent) : Request :=
  match q.phase with
  | .executing c =>
    if e.ends? = some r then
      match e.ending? config c q.code with
      | some how => { q with phase := .ended how }
      | none => q
    else q
  | _ => q

variable {config : Config} {r : Nat} {q : Request} {e : PoolEvent}

/-- An event that does not end its execution leaves a request as it is. -/
theorem next_of_ne (hne : ∀ c, q.phase = .executing c → e.ends? ≠ some r) :
    q.next config r e = q := by
  unfold next
  split
  · rename_i c hc
    exact if_neg (hne c hc)
  · rfl

/-- A request that does not wait never waits again. -/
theorem next_not_waiting (hw : q.phase ≠ .waiting) : (q.next config r e).phase ≠ .waiting := by
  unfold next
  split
  · split_ifs
    · split
      · nofun
      · exact hw
    · exact hw
  · exact hw

/-- Nobody changes the context. -/
theorem phase_of_next {c : Context} (h : (q.next config r e).phase = .executing c) :
    q.phase = .executing c := by
  unfold next at h
  split at h
  · split_ifs at h
    · split at h
      · cases h
      · exact h
    · exact h
  · exact h

/-- Nor does anybody in a whole run. -/
theorem phase_of_foldl_next {c : Context} {es : List PoolEvent}
    (h : (es.foldl (next config r) q).phase = .executing c) : q.phase = .executing c := by
  induction es generalizing q with
  | nil => exact h
  | cons e es ih => exact phase_of_next (ih h)

end Request

namespace PoolRun

variable {config : Config} {s s' : PoolRun} {e : PoolEvent} {es : List PoolEvent} {r : Nat}
  {q : Request} {c : Context}

/-! ## Requests that do not wait -/

theorem getElem?_setPhase_ne {r' : Nat} (h : r' ≠ r) (s : PoolRun) (phase : Phase) :
    (s.setPhase r' phase).requests[r]? = s.requests[r]? :=
  List.getElem?_modify_ne _ _ h

theorem getElem?_setPhase_self (hq : s.requests[r]? = some q) (phase : Phase) :
    (s.setPhase r phase).requests[r]? = some { q with phase } := by
  simp [setPhase, hq]

/-- Only the end of its own execution changes a request that does not wait. -/
theorem Steps.stays (h : s.Steps e s') (hq : s.requests[r]? = some q) (hw : q.phase ≠ .waiting)
    (hother : ∀ c, q.phase = .executing c → e.ends? ≠ some r) : s'.requests[r]? = some q := by
  have hlt : r < s.requests.length := (List.getElem?_eq_some_iff.1 hq).1
  cases h with
  | requested => exact (List.getElem?_append_left hlt).trans hq
  | leased hr | unspawned hr | left hr =>
    refine (getElem?_setPhase_ne ?_ s _).trans hq
    rintro rfl
    obtain rfl := Option.some.inj (hq.symm.trans hr)
    exact hw rfl
  | answered hr =>
    refine (getElem?_setPhase_ne ?_ s _).trans hq
    rintro rfl
    obtain rfl := Option.some.inj (hq.symm.trans hr)
    exact hother _ rfl rfl
  | aborted hr he =>
    refine (getElem?_setPhase_ne ?_ s _).trans hq
    rintro rfl
    obtain rfl := Option.some.inj (hq.symm.trans hr)
    rcases he with rfl | rfl | rfl <;> exact hother _ rfl rfl
  | shut =>
    refine List.getElem?_map.trans ?_
    rw [hq]
    obtain ⟨code, phase⟩ := q
    cases phase with
    | waiting => exact (hw rfl).elim
    | executing | ended => rfl
  | unfit => exact hq

/-- What becomes of a request that does not wait depends on nothing but itself. -/
theorem getElem?_step (hq : s.requests[r]? = some q) (hw : q.phase ≠ .waiting) (e : PoolEvent) :
    (s.step e).requests[r]? = some (q.next s.pool.config r e) := by
  by_cases hends : ∃ c, q.phase = .executing c ∧ e.ends? = some r
  · obtain ⟨c, hc, hends⟩ := hends
    obtain ⟨code, phase⟩ := q
    obtain rfl : phase = .executing c := hc
    have hctx : s.contextOf? r = some c := contextOf?_eq_some.2 ⟨code, hq⟩
    simp only [Request.next, if_pos hends]
    cases e with
    | answer r' =>
      obtain rfl := Option.some.inj hends
      simp only [step, hq, hctx, PoolEvent.ending?]
      cases (c.evaluate s.pool.config code).outcome with
      | none => exact hq
      | some o => exact getElem?_setPhase_self hq _
    | lost r' | timeout r' =>
      obtain rfl := Option.some.inj hends
      simp only [step, hctx]
      exact getElem?_setPhase_self hq _
    | drop r' =>
      obtain rfl := Option.some.inj hends
      simp only [step, hq]
      exact getElem?_setPhase_self hq _
    | request | grant | shutdown => cases hends
  · have hother : ∀ c, q.phase = .executing c → e.ends? ≠ some r :=
      fun c hc hr => hends ⟨c, hc, hr⟩
    rw [Request.next_of_ne hother]
    exact (steps_step s e).stays hq hw hother

/-- A request that does not wait goes through a run on its own. -/
theorem Sound.getElem?_run (hs : s.Sound config) (hq : s.requests[r]? = some q)
    (hw : q.phase ≠ .waiting) (es : List PoolEvent) :
    (s.run es).requests[r]? = some (es.foldl (Request.next config r) q) := by
  induction es generalizing s q with
  | nil => exact hq
  | cons e es ih =>
    have hstep := getElem?_step hq hw e
    rw [hs.config_eq] at hstep
    exact ih (hs.step e) hstep (Request.next_not_waiting hw)

/-- A request that has ended stays so. -/
theorem endOf?_run {how : RequestEnd} (hr : s.endOf? r = some how) (es : List PoolEvent) :
    (s.run es).endOf? r = some how := by
  obtain ⟨code, hq⟩ := endOf?_eq_some.1 hr
  refine endOf?_eq_some.2 ⟨code, ?_⟩
  induction es generalizing s with
  | nil => exact hq
  | cons e es ih =>
    have hstep := (steps_step s e).stays hq nofun nofun
    exact ih (endOf?_eq_some.2 ⟨code, hstep⟩) hstep

/-! ## A pool that was shut down -/

/-- A pool that was shut down is closed, keeps nothing and lets nobody wait. -/
structure ShutDown (s : PoolRun) : Prop where
  closed : s.pool.closed = true
  idle : s.pool.idle = []
  refused : ∀ (i : Nat) (q : Request), s.requests[i]? = some q → q.phase ≠ .waiting

/-- Shutting a pool down leaves it shut down. -/
theorem shutDown_step (s : PoolRun) : (s.step .shutdown).ShutDown where
  closed := rfl
  idle := rfl
  refused := by
    intro i q hi
    obtain ⟨p, -, rfl⟩ := Option.map_eq_some_iff.1 (List.getElem?_map.symm.trans hi)
    split
    · nofun
    · assumption

/-- Nobody waits after another request has ended. -/
theorem ShutDown.setPhase_end (hs : s.ShutDown) (r : Nat) (how : RequestEnd) :
    ∀ (i : Nat) (q : Request), (s.setPhase r (.ended how)).requests[i]? = some q →
      q.phase ≠ .waiting := by
  intro i q hi
  rcases getElem?_setPhase hi with hi | ⟨-, hph, -⟩
  · exact hs.refused i q hi
  · rw [hph]
    nofun

/-- No step lets a pool that was shut down keep a context, or takes one for a request. -/
theorem Steps.shutDown (hs : s.ShutDown) (h : s.Steps e s') : s'.ShutDown ∧
    s'.pool.stats.totalCreated = s.pool.stats.totalCreated ∧
      s'.pool.stats.reused = s.pool.stats.reused := by
  cases h with
  | @requested code =>
    refine ⟨⟨hs.closed, hs.idle, fun i q hi => ?_⟩, rfl, rfl⟩
    rw [hs.closed, if_pos rfl] at hi
    rcases List.mem_append.1 (List.mem_of_getElem? hi) with hq | hq
    · obtain ⟨j, hj⟩ := List.getElem?_of_mem hq
      exact hs.refused j q hj
    · rw [List.mem_singleton.1 hq]
      nofun
  | leased hr | unspawned hr | left hr => exact (hs.refused _ _ hr rfl).elim
  | answered hr =>
    refine ⟨⟨hs.closed, ?_, hs.setPhase_end _ _⟩, rfl, rfl⟩
    exact (if_neg (by simp [hs.closed])).trans hs.idle
  | aborted hr => exact ⟨⟨hs.closed, hs.idle, hs.setPhase_end _ _⟩, rfl, rfl⟩
  | shut => exact ⟨shutDown_step s, rfl, rfl⟩
  | unfit => exact ⟨hs, rfl, rfl⟩

/-- A pool stays shut down, and makes and reuses no context any more. -/
theorem ShutDown.run (hs : s.ShutDown) (es : List PoolEvent) : (s.run es).ShutDown ∧
    (s.run es).pool.stats.totalCreated = s.pool.stats.totalCreated ∧
      (s.run es).pool.stats.reused = s.pool.stats.reused := by
  induction es generalizing s with
  | nil => exact ⟨hs, rfl, rfl⟩
  | cons e es ih =>
    obtain ⟨hstep, hcreated, hreused⟩ := (steps_step s e).shutDown hs
    obtain ⟨hrun, hcreated', hreused'⟩ := ih hstep
    exact ⟨hrun, hcreated'.trans hcreated, hreused'.trans hreused⟩

/-! ## Who is refused -/

/-- A new request waits, unless the pool is closed. -/
theorem Steps.arrives {i : Nat} (h : s.Steps e s') (hnone : s.requests[i]? = none)
    (hi : s'.requests[i]? = some q) :
    q.phase = if s.pool.closed then .ended (.failed .closed) else .waiting := by
  have hge := List.getElem?_eq_none_iff.1 hnone
  have hstill {r : Nat} {phase : Phase} : (s.setPhase r phase).requests[i]? = none := by
    simp [setPhase, hge]
  cases h with
  | requested =>
    rw [List.getElem?_append_right hge, List.getElem?_singleton] at hi
    obtain ⟨-, hq⟩ := Option.ite_none_right_eq_some.1 hi
    exact congrArg Request.phase (Option.some.inj hq).symm
  | leased | unspawned | answered | aborted | left =>
    exact absurd (hi.symm.trans hstill) (Option.some_ne_none q)
  | shut =>
    have hmap := hi
    rw [refuseWaiting, List.getElem?_map, hnone] at hmap
    cases hmap
  | unfit => exact absurd (hi.symm.trans hnone) (Option.some_ne_none q)

/-- Who is refused once the pool is shut down: everyone but those admitted before. -/
def Refuses (admitted : Nat → Prop) (s : PoolRun) : Prop :=
  ∀ (i : Nat) (q : Request), s.requests[i]? = some q → ¬admitted i →
    q.phase = .ended (.failed .closed)

/-- A pool that is shut down goes on refusing. -/
theorem Refuses.run {admitted : Nat → Prop} (h : s.Refuses admitted) (hs : s.ShutDown)
    (es : List PoolEvent) : (s.run es).Refuses admitted := by
  induction es generalizing s with
  | nil => exact h
  | cons e es ih =>
    have hsteps := steps_step s e
    refine ih (fun i q hi hadmitted => ?_) (hsteps.shutDown hs).1
    cases hp : s.requests[i]? with
    | some p =>
      have hph := h i p hp hadmitted
      have hstays := hsteps.stays hp (hs.refused i p hp) (by rw [hph]; nofun)
      obtain rfl := Option.some.inj (hstays.symm.trans hi)
      exact hph
    | none => rw [hsteps.arrives hp hi, hs.closed, if_pos rfl]

/-- All requests are refused but those that execute or have ended. -/
theorem refuses_shutdown (s : PoolRun) : (s.step .shutdown).Refuses fun r =>
    s.contextOf? r ≠ none ∨ s.endOf? r ≠ none := by
  intro i q hi hadmitted
  obtain ⟨⟨code, phase⟩, hp, rfl⟩ := Option.map_eq_some_iff.1 (List.getElem?_map.symm.trans hi)
  cases phase with
  | waiting => rfl
  | executing c =>
    have hc := contextOf?_eq_some.2 ⟨code, hp⟩
    exact (hadmitted (.inl (by rw [hc]; nofun))).elim
  | ended how =>
    have hend := endOf?_eq_some.2 ⟨code, hp⟩
    exact (hadmitted (.inr (by rw [hend]; nofun))).elim

/-! ## A run with a shutdown -/

/-- A context in flight is that of a request. -/
theorem exists_contextOf?_of_mem (h : c ∈ s.inFlight) : ∃ r, s.contextOf? r = some c := by
  obtain ⟨⟨code, phase⟩, hmem, hc⟩ := List.mem_filterMap.1 h
  obtain ⟨r, hr⟩ := List.getElem?_of_mem hmem
  cases phase with
  | executing d =>
    obtain rfl := Option.some.inj hc
    exact ⟨r, contextOf?_eq_some.2 ⟨code, hr⟩⟩
  | waiting | ended => cases hc

/-- A request that has a context has not ended. -/
theorem endOf?_of_contextOf? (h : s.contextOf? r = some c) : s.endOf? r = none := by
  obtain ⟨code, hr⟩ := contextOf?_eq_some.1 h
  simp [endOf?, hr]

/-- A request that executes when the pool is shut down goes on as without the shutdown. -/
theorem Sound.getElem?_shutdown (hs : s.Sound config) (hc : s.contextOf? r = some c)
    (es : List PoolEvent) :
    ((s.step .shutdown).run es).requests[r]? = (s.run es).requests[r]? := by
  obtain ⟨code, hq⟩ := contextOf?_eq_some.1 hc
  have hstays := (steps_step s .shutdown).stays hq nofun nofun
  rw [(hs.step .shutdown).getElem?_run hstays nofun, hs.getElem?_run hq nofun]

/-- Who executes after a shutdown executed in the same context when it came. -/
theorem Sound.contextOf?_shutdown (hs : s.Sound config)
    (hc : ((s.step .shutdown).run es).contextOf? r = some c) : s.contextOf? r = some c := by
  obtain ⟨code, hq⟩ := contextOf?_eq_some.1 hc
  cases hbefore : s.contextOf? r with
  | some d =>
    obtain ⟨code', hq'⟩ := contextOf?_eq_some.1 hbefore
    have hsame := hs.getElem?_shutdown hbefore es
    rw [hs.getElem?_run hq' nofun, hq] at hsame
    have hphase := congrArg Request.phase (Option.some.inj hsame)
    cases Request.phase_of_foldl_next hphase.symm
    rfl
  | none =>
    have hend : s.endOf? r = none := by
      by_contra hsome
      obtain ⟨how, hhow⟩ := Option.ne_none_iff_exists'.1 hsome
      have hstill := endOf?_run hhow (.shutdown :: es)
      exact absurd (hstill.symm.trans (endOf?_of_contextOf? hc)) (Option.some_ne_none how)
    have hrefused := (refuses_shutdown s).run (shutDown_step s) es r _ hq (by simp [hbefore, hend])
    cases hrefused

/-- A shutdown is final, at whatever point of a run it comes. From then on no context is
idle. All who had no permit and had not left are refused, and so are all who come later;
nobody but those who executed at the shutdown has a context, and none is made or reused for
anybody. Who executed at the shutdown goes on and ends as without it. And once all these
have ended, no context is held at all and the counts of executing and idle ones are 0. -/
theorem shut_for_good (config : Config) (before after : List PoolEvent) :
    let s := (new config).run before
    let t := (new config).run (before ++ .shutdown :: after)
    (t.pool.idle = [] ∧ t.pool.stats.idle = 0) ∧
      (∀ r q, t.requests[r]? = some q → s.contextOf? r = none → s.endOf? r = none →
        q.phase = .ended (.failed .closed)) ∧
      ((∀ r c, t.contextOf? r = some c → s.contextOf? r = some c) ∧
        t.pool.stats.totalCreated = s.pool.stats.totalCreated ∧
        t.pool.stats.reused = s.pool.stats.reused) ∧
      (∀ r c, s.contextOf? r = some c →
        t.requests[r]? = ((new config).run (before ++ after)).requests[r]?) ∧
      ((∀ r c, s.contextOf? r = some c → (t.endOf? r).isSome) →
        t.contexts = [] ∧ t.pool.active = [] ∧ t.pool.activeCount = 0 ∧
          t.pool.stats.active = 0) := by
  intro s t
  have hs : s.Sound config := sound_run config before
  have ht : t.Sound config := sound_run config _
  have hcounted : t.pool.Counted := counted_run config _
  have hrun : t = (s.step .shutdown).run after := run_append _ before _
  obtain ⟨hshut, hcreated, hreused⟩ := (shutDown_step s).run after
  have hrefuses := (refuses_shutdown s).run (shutDown_step s) after
  rw [← hrun] at hshut hcreated hreused hrefuses
  have hexecutes : ∀ r c, t.contextOf? r = some c → s.contextOf? r = some c :=
    fun r c hc => hs.contextOf?_shutdown (hrun ▸ hc)
  refine ⟨⟨hshut.idle, hcounted.idle.trans (congrArg List.length hshut.idle)⟩,
    fun r q hq hc hend => hrefuses r q hq (by simp [hc, hend]),
    ⟨hexecutes, hcreated, hreused⟩, fun r c hc => ?_, fun hended => ?_⟩
  · rw [hrun, run_append]
    exact hs.getElem?_shutdown hc after
  · have hnone : t.inFlight = [] := by
      refine List.eq_nil_iff_forall_not_mem.2 fun c hc => ?_
      obtain ⟨r, hr⟩ := exists_contextOf?_of_mem hc
      have hend := hended r c (hexecutes r c hr)
      rw [endOf?_of_contextOf? hr] at hend
      cases hend
    have hactive : t.pool.active = [] := by
      have hperm := ht.active
      rw [hnone] at hperm
      exact hperm.eq_nil
    refine ⟨?_, hactive, congrArg List.length hactive,
      hcounted.active.trans (congrArg List.length hactive)⟩
    rw [contexts, hnone, hshut.idle]
    rfl

end PoolRun

end LiveScene.Sandbox
