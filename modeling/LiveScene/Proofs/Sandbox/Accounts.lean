import LiveScene.Proofs.Sandbox.Leases

/-!
# The accounts of a pool

A pool counts the contexts it made and reused, the executions that ended
with an outcome and the contexts it discarded. `PoolRun.tally` has these
counts beside what there is to count: the contexts in flight, the idle ones
and the outcomes that requests ended with.

`PoolRun.Entry` lists what a step enters into the accounts, and
`PoolRun.Steps.entry` says that every step is one entry or none. That the
accounts balance after any order of events (`PoolRun.accounts_balance`)
follows entry by entry. The counts of executing and idle contexts are taken
anew by each operation that changes them (`Pool.Counted`).
-/

namespace LiveScene.Sandbox

namespace Phase

/-- The outcome a request ended with, of whatever kind it is. -/
def outcome? : Phase → Option Outcome
  | .ended (.answered _ o) => some o
  | _ => none

end Phase

namespace Pool

variable {p p' : Pool} {c : Context} {spawns : Bool}

/-- The counts that are taken anew are those of the lists, and contexts are numbered as
they are made. -/
structure Counted (p : Pool) : Prop where
  active : p.stats.active = p.active.length
  idle : p.stats.idle = p.idle.length
  nextId : p.nextId = p.stats.totalCreated

/-- What is entered when a context is taken. -/
theorem entries_of_acquire (h : p.acquire spawns = some (c, p')) :
    p'.stats.executions = p.stats.executions ∧ p'.stats.discarded = p.stats.discarded ∧
      (p.idle.length = p'.idle.length + 1 ∧ p'.stats.reused = p.stats.reused + 1 ∧
          p'.stats.totalCreated = p.stats.totalCreated ∨
        p.idle.length = 0 ∧ p'.idle.length = 0 ∧ p'.stats.reused = p.stats.reused ∧
          p'.stats.totalCreated = p.stats.totalCreated + 1) := by
  unfold acquire at h
  split at h
  · rename_i d rest hidle
    obtain ⟨rfl, rfl⟩ := Prod.mk.inj (Option.some.inj h)
    exact ⟨rfl, rfl, .inl ⟨congrArg List.length hidle, rfl, rfl⟩⟩
  · rename_i hidle
    split_ifs at h
    obtain ⟨rfl, rfl⟩ := Prod.mk.inj (Option.some.inj h)
    have hnone : p.idle.length = 0 := congrArg List.length hidle
    exact ⟨rfl, rfl, .inr ⟨hnone, hnone, rfl, rfl⟩⟩

/-- Taking a context keeps the counts right. -/
theorem Counted.acquire (hp : p.Counted) (h : p.acquire spawns = some (c, p')) : p'.Counted := by
  have hid := hp.nextId
  unfold Pool.acquire at h
  split at h
  · obtain ⟨rfl, rfl⟩ := Prod.mk.inj (Option.some.inj h)
    exact ⟨rfl, rfl, hid⟩
  · split_ifs at h
    obtain ⟨rfl, rfl⟩ := Prod.mk.inj (Option.some.inj h)
    exact ⟨rfl, rfl, congrArg (· + 1) hid⟩

end Pool

namespace PoolRun

variable {config : Config} {s s' : PoolRun} {e : PoolEvent} {r : Nat} {c : Context}
  {code : String}

/-- The outcomes that requests ended with, in the order of the requests. -/
def outcomes (s : PoolRun) : List Outcome := s.requests.filterMap (·.phase.outcome?)

/-- The counts of a pool beside the things counted. -/
@[ext] structure Tally where
  created : Nat
  reused : Nat
  executions : Nat
  discarded : Nat
  executing : Nat
  idle : Nat
  answered : Nat

/-- The counts and the things counted as they are. -/
def tally (s : PoolRun) : Tally where
  created := s.pool.stats.totalCreated
  reused := s.pool.stats.reused
  executions := s.pool.stats.executions
  discarded := s.pool.stats.discarded
  executing := s.inFlight.length
  idle := s.pool.idle.length
  answered := s.outcomes.length

/-- What an event enters into the accounts. -/
inductive Entry (s : PoolRun) (e : PoolEvent) : Tally → Prop
  | none : s.Entry e s.tally
  | reused {idle : Nat} (h : s.tally.idle = idle + 1) : s.Entry e
      { s.tally with reused := s.tally.reused + 1, executing := s.tally.executing + 1, idle }
  | created (h : s.tally.idle = 0) : s.Entry e
      { s.tally with created := s.tally.created + 1, executing := s.tally.executing + 1 }
  /-- An execution ends with an outcome, and its context is kept. -/
  | kept {executing : Nat} (h : s.tally.executing = executing + 1) : s.Entry e
      { s.tally with
        executions := s.tally.executions + 1
        answered := s.tally.answered + 1
        idle := s.tally.idle + 1
        executing }
  /-- An execution ends with an outcome, and there is no room for its context. -/
  | released {executing : Nat} (h : s.tally.executing = executing + 1)
      (hfull : s.pool.closed = true ∨ s.pool.config.maxIdle ≤ s.tally.idle) : s.Entry e
      { s.tally with
        executions := s.tally.executions + 1, answered := s.tally.answered + 1, executing }
  | discarded {executing : Nat} {c : Context} (h : s.tally.executing = executing + 1)
      (hc : s.gaveUp? e = some c) : s.Entry e
      { s.tally with discarded := s.tally.discarded + 1, executing }
  | emptied (he : e = .shutdown) : s.Entry e { s.tally with idle := 0 }

/-! ## The outcomes of the requests -/

/-- A request without an outcome gets one, or does not. -/
theorem length_outcomes_setPhase {q : Request} (hr : s.requests[r]? = some q)
    (hq : q.phase.outcome? = none) (phase : Phase) :
    (s.setPhase r phase).outcomes.length = phase.outcome?.toList.length + s.outcomes.length := by
  have hlen := (filterMap_setPhase Phase.outcome? hr phase).length_eq
  rw [List.length_append, hq] at hlen
  exact hlen.symm

/-- A request that ends without an outcome adds none. -/
theorem length_outcomes_quiet {q : Request} {phase : Phase} (hr : s.requests[r]? = some q)
    (hq : q.phase.outcome? = none) (hp : phase.outcome? = none) :
    (s.setPhase r phase).outcomes.length = s.outcomes.length := by
  rw [length_outcomes_setPhase hr hq, hp]
  exact Nat.zero_add _

/-- One that ends with an outcome adds it. -/
theorem length_outcomes_answer {q : Request} {id : Nat} {o : Outcome}
    (hr : s.requests[r]? = some q) (hq : q.phase.outcome? = none) :
    (s.setPhase r (.ended (.answered id o))).outcomes.length = s.outcomes.length + 1 := by
  rw [length_outcomes_setPhase hr hq]
  exact Nat.add_comm _ _

/-! ## One step -/

/-- An event that ends an executing request without an outcome gives its context up. -/
theorem gaveUp?_of_aborted (hr : s.requests[r]? = some ⟨code, .executing c⟩)
    (he : e = .lost r ∨ e = .timeout r ∨ e = .drop r) : s.gaveUp? e = some c := by
  have hc := contextOf?_eq_some.2 ⟨code, hr⟩
  rcases he with rfl | rfl | rfl <;> exact hc

/-- A request that stops waiting without an outcome leaves the accounts alone. -/
theorem tally_leave {how : RequestEnd} (hr : s.requests[r]? = some ⟨code, .waiting⟩)
    (hhow : (Phase.ended how).outcome? = none) : (s.setPhase r (.ended how)).tally = s.tally :=
  Tally.ext rfl rfl rfl rfl (inFlight_leave hr how).length_eq.symm rfl
    (length_outcomes_quiet hr rfl hhow)

theorem Entry.of_eq {t t' : Tally} (h : s.Entry e t) (ht : t' = t) : s.Entry e t' := ht ▸ h

/-- Every step is one entry into the accounts, or none. -/
theorem Steps.entry (h : s.Steps e s') : s.Entry e s'.tally := by
  cases h with
  | @requested code =>
    have hin := congrArg List.length (inFlight_request (s := s) code s.pool.closed)
    have hout := congrArg List.length
      (filterMap_request (f := Phase.outcome?) rfl rfl s.requests code s.pool.closed)
    exact Entry.none.of_eq (Tally.ext rfl rfl rfl rfl hin rfl hout)
  | @leased r code spawns c pool hr hp ha =>
    have hin := (inFlight_lease (c := c) hr).length_eq
    have hout : (s.setPhase r (.executing c)).outcomes.length = _ :=
      length_outcomes_quiet hr rfl rfl
    obtain ⟨hex, hdis, ⟨hidle, hre, hcr⟩ | ⟨hidle, hidle', hre, hcr⟩⟩ := Pool.entries_of_acquire ha
    · exact (Entry.reused hidle).of_eq (Tally.ext hcr hre hex hdis hin rfl hout)
    · exact (Entry.created hidle).of_eq
        (Tally.ext hcr hre hex hdis hin (hidle'.trans hidle.symm) hout)
  | unspawned hr | left hr => exact Entry.none.of_eq (tally_leave hr rfl)
  | @answered r code c o hr ho =>
    have hin := (inFlight_end hr (.answered c.id o)).length_eq
    have hout : (s.setPhase r (.ended (.answered c.id o))).outcomes.length = _ :=
      length_outcomes_answer hr rfl
    by_cases hk : (!s.pool.closed && s.pool.idle.length < s.pool.config.maxIdle) = true
    · have hidle : (s.pool.release c.answered).idle = c.answered :: s.pool.idle := if_pos hk
      exact (Entry.kept hin).of_eq
        (Tally.ext rfl rfl rfl rfl rfl (congrArg List.length hidle) hout)
    · have hidle : (s.pool.release c.answered).idle = s.pool.idle := if_neg hk
      have hfull : s.pool.closed = true ∨ s.pool.config.maxIdle ≤ s.pool.idle.length := by
        simpa [Nat.not_lt, or_iff_not_imp_left] using hk
      exact (Entry.released hin hfull).of_eq
        (Tally.ext rfl rfl rfl rfl rfl (congrArg List.length hidle) hout)
  | @aborted e r code c how hr he ho hm =>
    have hin := (inFlight_end hr how).length_eq
    have hquiet : (Phase.ended how).outcome? = none := by
      cases how with
      | answered id o => exact (ho id o rfl).elim
      | failed | dropped => rfl
    have hout := length_outcomes_quiet hr rfl hquiet
    exact (Entry.discarded hin (gaveUp?_of_aborted hr he)).of_eq
      (Tally.ext rfl rfl rfl rfl rfl rfl hout)
  | shut =>
    have hin := congrArg List.length (inFlight_refuseWaiting (s := s) s.pool.shutdown)
    have hout := congrArg List.length
      (filterMap_refuseWaiting (f := Phase.outcome?) rfl rfl s.requests)
    exact (Entry.emptied rfl).of_eq (Tally.ext rfl rfl rfl rfl hin rfl hout)
  | unfit he => exact .none

/-- Every step keeps the counts right. -/
theorem Steps.counted (hp : s.pool.Counted) (h : s.Steps e s') : s'.pool.Counted := by
  have hid := hp.nextId
  cases h with
  | requested | unspawned | left | unfit => exact hp
  | leased hr _ ha =>
    have hpool := hp.acquire ha
    exact ⟨hpool.active, hpool.idle, hpool.nextId⟩
  | answered | aborted => exact ⟨rfl, rfl, hid⟩
  | shut => exact ⟨hp.active, rfl, hid⟩

/-! ## A whole run -/

/-- The accounts balance. -/
structure Tally.Balanced (t : Tally) : Prop where
  taken : t.created + t.reused = t.executions + t.discarded + t.executing
  held : t.idle + t.executing + t.discarded ≤ t.created
  answered : t.executions = t.answered

/-- An entry keeps the accounts balanced. -/
theorem Entry.balanced {t : Tally} (ht : s.tally.Balanced) (h : s.Entry e t) : t.Balanced := by
  obtain ⟨htaken, hheld, hanswered⟩ := ht
  cases h with
  | none => exact ⟨htaken, hheld, hanswered⟩
  | reused | created | kept | released | discarded | emptied =>
    constructor <;> dsimp only <;> omega

/-- The accounts balance after every run. -/
theorem balanced_run (config : Config) (es : List PoolEvent) :
    ((new config).run es).tally.Balanced := by
  suffices ∀ s : PoolRun, s.tally.Balanced → (s.run es).tally.Balanced from
    this _ ⟨rfl, Nat.le_refl 0, rfl⟩
  induction es with
  | nil => exact fun s hs => hs
  | cons e es ih => exact fun s hs => ih _ ((steps_step s e).entry.balanced hs)

/-- The counts are right after every run. -/
theorem counted_run (config : Config) (es : List PoolEvent) :
    ((new config).run es).pool.Counted := by
  suffices ∀ s : PoolRun, s.pool.Counted → (s.run es).pool.Counted from this _ ⟨rfl, rfl, rfl⟩
  induction es with
  | nil => exact fun s hs => hs
  | cons e es ih => exact fun s hs => ih _ ((steps_step s e).counted hs)

/-- The accounts of a pool balance after any order of events: who took a context, new or
reused, has an outcome, had the context discarded or still executes; the counts of executing
and idle contexts are right; no more contexts are held or discarded than were made; and
there are as many executions as requests that ended with an outcome, be it exports or a
fault of any kind. -/
theorem accounts_balance (config : Config) (es : List PoolEvent) :
    let s := (new config).run es
    let n := s.pool.stats
    n.totalCreated + n.reused = n.executions + n.discarded + s.inFlight.length ∧
      (n.active = s.inFlight.length ∧ s.pool.activeCount = s.inFlight.length) ∧
      n.idle = s.pool.idle.length ∧
      s.pool.idle.length + s.inFlight.length + n.discarded ≤ n.totalCreated ∧
      n.executions = s.outcomes.length := by
  intro s n
  obtain ⟨htaken, hheld, hanswered⟩ := balanced_run config es
  have hcounted := counted_run config es
  have hactive : s.pool.active.length = s.inFlight.length :=
    (sound_run config es).active.length_eq.trans (List.length_map _)
  exact ⟨htaken, ⟨hcounted.active.trans hactive, hactive⟩, hcounted.idle, hheld, hanswered⟩

end PoolRun

end LiveScene.Sandbox
