import LiveScene.Sandbox.PoolRun
import Mathlib.Data.List.Perm.Basic

/-!
# What an event does to a pool

`PoolRun.Steps` is the list of the steps of a pool and the requests made to
it, with what each one found (`PoolRun.steps_step`). `PoolRun.inFlight` are the
contexts of the requests that execute, and `PoolRun.contexts` these and the
idle ones, which are all a pool knows of.

A step does one of four things to the contexts (`PoolRun.Moves`): it moves
them about, makes a new one, gets one back that has answered, or lets go of
some. `PoolRun.Steps.moves` says which, and that no step does anything else.
-/

namespace LiveScene.Sandbox

namespace Phase

/-- The context of a request that executes. -/
def context? : Phase → Option Context
  | .executing c => some c
  | .waiting | .ended _ => none

end Phase

/-- The code of a new request. -/
def PoolEvent.code? : PoolEvent → Option String
  | .request code => some code
  | _ => none

namespace Pool

variable {p p' : Pool} {c : Context} {spawns : Bool}

/-- What taking a context does: it is the idle one released last, or a new one. -/
theorem acquire_eq_some (h : p.acquire spawns = some (c, p')) :
    p'.config = p.config ∧ p'.permits = p.permits ∧ p'.active = c.id :: p.active ∧
      (p.idle = c :: p'.idle ∧ p'.nextId = p.nextId ∨
        p.idle = p'.idle ∧ c = .fresh p.nextId ∧ p'.nextId = p.nextId + 1) := by
  unfold acquire at h
  split at h
  · rename_i d rest hidle
    obtain ⟨rfl, rfl⟩ := Prod.mk.inj (Option.some.inj h)
    exact ⟨rfl, rfl, rfl, .inl ⟨hidle, rfl⟩⟩
  · rename_i hidle
    split_ifs at h
    obtain ⟨rfl, rfl⟩ := Prod.mk.inj (Option.some.inj h)
    exact ⟨rfl, rfl, rfl, .inr ⟨rfl, rfl, rfl⟩⟩

/-- Taking a context neither opens a pool nor closes it. -/
theorem closed_of_acquire (h : p.acquire spawns = some (c, p')) : p'.closed = p.closed := by
  unfold acquire at h
  split at h
  · obtain ⟨-, rfl⟩ := Prod.mk.inj (Option.some.inj h)
    rfl
  · split_ifs at h
    obtain ⟨-, rfl⟩ := Prod.mk.inj (Option.some.inj h)
    rfl

end Pool

namespace PoolRun

variable {s s' : PoolRun} {e : PoolEvent} {r : Nat} {c : Context} {code : String}

/-- The contexts of the requests that execute. -/
def inFlight (s : PoolRun) : List Context := s.requests.filterMap (·.phase.context?)

/-- The contexts a pool knows of. -/
def contexts (s : PoolRun) : List Context := s.inFlight ++ s.pool.idle

/-- Only a request that executes has a context. -/
theorem contextOf?_eq_some :
    s.contextOf? r = some c ↔ ∃ code, s.requests[r]? = some ⟨code, .executing c⟩ := by
  unfold contextOf?
  constructor
  · intro h
    split at h
    · rename_i code d hr
      obtain rfl := Option.some.inj h
      exact ⟨code, hr⟩
    · cases h
  · rintro ⟨code, hr⟩
    rw [hr]

/-- The steps of a pool. -/
inductive Steps (s : PoolRun) : PoolEvent → PoolRun → Prop
  | requested {code : String} : Steps s (.request code)
      { s with requests := s.requests ++
          [⟨code, if s.pool.closed then .ended (.failed .closed) else .waiting⟩] }
  | leased {r : Nat} {code : String} {spawns : Bool} {c : Context} {pool : Pool}
      (hr : s.requests[r]? = some ⟨code, .waiting⟩) (hp : s.pool.permits ≠ 0)
      (ha : s.pool.acquire spawns = some (c, pool)) : Steps s (.grant r spawns)
      ({ s with pool := { pool with permits := pool.permits - 1 } }.setPhase r (.executing c))
  | unspawned {r : Nat} {code : String} {spawns : Bool}
      (hr : s.requests[r]? = some ⟨code, .waiting⟩) :
      Steps s (.grant r spawns) (s.setPhase r (.ended (.failed (.spawn ""))))
  | answered {r : Nat} {code : String} {c : Context} {o : Outcome}
      (hr : s.requests[r]? = some ⟨code, .executing c⟩)
      (ho : (c.evaluate s.pool.config code).outcome = some o) : Steps s (.answer r)
      ({ s with pool := freePermit (s.pool.release c.answered) }.setPhase r
        (.ended (.answered c.id o)))
  | aborted {e : PoolEvent} {r : Nat} {code : String} {c : Context} {how : RequestEnd}
      (hr : s.requests[r]? = some ⟨code, .executing c⟩)
      (he : e = .lost r ∨ e = .timeout r ∨ e = .drop r)
      (ho : ∀ id o, how ≠ .answered id o) (hm : ∀ m, how ≠ .failed (.spawn m)) :
      Steps s e (s.abort r c how)
  | left {r : Nat} {code : String} (hr : s.requests[r]? = some ⟨code, .waiting⟩) :
      Steps s (.drop r) (s.setPhase r (.ended .dropped))
  | shut : Steps s .shutdown ⟨s.pool.shutdown, refuseWaiting s.requests⟩
  | unfit {e : PoolEvent} (he : e.code? = none) : Steps s e s

/-- A step that looks up the context of a request is one of the list if it is wherever the
request executes: where it does not, the event does not fit. -/
theorem steps_of_executing (s : PoolRun) (he : e.code? = none) {f : Context → PoolRun}
    (hf : ∀ c code, s.requests[r]? = some ⟨code, .executing c⟩ → s.Steps e (f c)) :
    s.Steps e (match s.contextOf? r with
      | some c => f c
      | none => s) := by
  split
  · rename_i c hc
    obtain ⟨code, hr⟩ := contextOf?_eq_some.1 hc
    exact hf c code hr
  · exact .unfit he

/-- Every step is one of the list. -/
theorem steps_step (s : PoolRun) (e : PoolEvent) : s.Steps e (s.step e) := by
  cases e with
  | request code => exact .requested
  | grant r spawns =>
    simp only [step]
    split
    · rename_i code hr
      split_ifs with hp
      · exact .unfit rfl
      · split
        · rename_i c pool ha
          exact .leased hr hp ha
        · exact .unspawned hr
    · exact .unfit rfl
  | answer r =>
    simp only [step]
    split
    · rename_i q c hq hc
      obtain ⟨code, hr⟩ := contextOf?_eq_some.1 hc
      obtain rfl := Option.some.inj (hq.symm.trans hr)
      split
      · rename_i o ho
        exact .answered hr ho
      · exact .unfit rfl
    · exact .unfit rfl
  | lost r =>
    exact s.steps_of_executing rfl fun c code hr => .aborted hr (.inl rfl) nofun nofun
  | timeout r =>
    exact s.steps_of_executing rfl fun c code hr => .aborted hr (.inr (.inl rfl)) nofun nofun
  | drop r =>
    simp only [step]
    split
    · rename_i code hr
      exact .left hr
    · rename_i code c hr
      exact .aborted hr (.inr (.inr rfl)) nofun nofun
    · exact .unfit rfl
  | shutdown => exact .shut

/-! ## The contexts of the requests -/

theorem filterMap_phase_cons {α : Type} (f : Phase → Option α) (q : Request)
    (requests : List Request) :
    (q :: requests).filterMap (fun q => f q.phase) =
      (f q.phase).toList ++ requests.filterMap (fun q => f q.phase) := by
  rw [List.filterMap_cons]
  cases f q.phase <;> rfl

/-- Another phase for a request exchanges what is taken from its phase. -/
theorem filterMap_setPhase {α : Type} (f : Phase → Option α) {q : Request}
    (hr : s.requests[r]? = some q) (phase : Phase) :
    ((f phase).toList ++ s.requests.filterMap (fun q => f q.phase)).Perm
      ((f q.phase).toList ++ (s.setPhase r phase).requests.filterMap (fun q => f q.phase)) := by
  obtain ⟨hlt, -⟩ := List.getElem?_eq_some_iff.1 hr
  obtain ⟨before, a, after, hl, rfl, hm⟩ :=
    List.exists_of_modify (fun q : Request => { q with phase }) hlt
  obtain rfl : a = q := by simpa [hl] using hr
  have hset : (s.setPhase before.length phase).requests = before ++ { a with phase } :: after := hm
  rw [hset, hl]
  simp only [List.filterMap_append, filterMap_phase_cons]
  refine (List.perm_append_comm_assoc _ _ _).trans (.trans ?_ (List.perm_append_comm_assoc _ _ _))
  exact (List.perm_append_comm_assoc _ _ _).append_left _

/-- Another phase for a request exchanges its context, if it has one. -/
theorem inFlight_setPhase {q : Request} (hr : s.requests[r]? = some q) (phase : Phase) :
    (phase.context?.toList ++ s.inFlight).Perm
      (q.phase.context?.toList ++ (s.setPhase r phase).inFlight) :=
  filterMap_setPhase Phase.context? hr phase

/-- A request that gets a context puts it in flight. -/
theorem inFlight_lease (hr : s.requests[r]? = some ⟨code, .waiting⟩) :
    (s.setPhase r (.executing c)).inFlight.Perm (c :: s.inFlight) :=
  (inFlight_setPhase hr _).symm

/-- A request that ends takes its context out of flight. -/
theorem inFlight_end (hr : s.requests[r]? = some ⟨code, .executing c⟩) (how : RequestEnd) :
    s.inFlight.Perm (c :: (s.setPhase r (.ended how)).inFlight) :=
  inFlight_setPhase hr (.ended how)

/-- A request that never had a context leaves those in flight. -/
theorem inFlight_leave (hr : s.requests[r]? = some ⟨code, .waiting⟩) (how : RequestEnd) :
    s.inFlight.Perm (s.setPhase r (.ended how)).inFlight :=
  inFlight_setPhase hr (.ended how)

/-- What neither waiting nor refused requests have is left alone where they are refused. -/
theorem filterMap_refuseWaiting {α : Type} {f : Phase → Option α} (hw : f .waiting = none)
    (hc : f (.ended (.failed .closed)) = none) (requests : List Request) :
    (refuseWaiting requests).filterMap (fun q => f q.phase) =
      requests.filterMap (fun q => f q.phase) := by
  unfold refuseWaiting
  rw [List.filterMap_map]
  congr 1
  funext q
  simp only [Function.comp]
  split
  · rename_i h
    rw [h, hw, hc]
  · rfl

theorem inFlight_refuseWaiting (pool : Pool) :
    inFlight ⟨pool, refuseWaiting s.requests⟩ = s.inFlight :=
  filterMap_refuseWaiting rfl rfl s.requests

/-- A new request has nothing that neither waiting nor refused ones have. -/
theorem filterMap_request {α : Type} {f : Phase → Option α} (hw : f .waiting = none)
    (hc : f (.ended (.failed .closed)) = none) (requests : List Request) (code : String)
    (closed : Bool) :
    (requests ++ [(⟨code, if closed then .ended (.failed .closed) else .waiting⟩ :
      Request)]).filterMap (fun q => f q.phase) = requests.filterMap (fun q => f q.phase) := by
  cases closed <;> simp [hw, hc]

theorem inFlight_request (code : String) (closed : Bool) :
    inFlight { s with requests := s.requests ++
      [⟨code, if closed then .ended (.failed .closed) else .waiting⟩] } = s.inFlight :=
  filterMap_request rfl rfl s.requests code closed

/-- The context of a request is in flight. -/
theorem mem_inFlight (h : s.contextOf? r = some c) : c ∈ s.inFlight := by
  obtain ⟨code, hr⟩ := contextOf?_eq_some.1 h
  exact List.mem_filterMap.2 ⟨_, List.mem_of_getElem? hr, rfl⟩

/-! ## What becomes of the contexts -/

/-- What a step does to the contexts. -/
inductive Moves (s s' : PoolRun) : Prop
  | moved (hc : s'.contexts.Perm s.contexts) (hn : s'.pool.nextId = s.pool.nextId)
  | made (hc : s'.contexts.Perm (.fresh s.pool.nextId :: s.contexts))
      (hn : s'.pool.nextId = s.pool.nextId + 1)
  | returned {c : Context} {others : List Context} (hc : s.contexts.Perm (c :: others))
      (hc' : s'.contexts.Perm (c.answered :: others)) (hn : s'.pool.nextId = s.pool.nextId)
  | letGo (gone : List Context) (hc : s.contexts.Perm (gone ++ s'.contexts))
      (hn : s'.pool.nextId = s.pool.nextId)

/-- Every step moves contexts about, makes one, gets one back, or lets go of some. -/
theorem Steps.moves (h : s.Steps e s') : s.Moves s' := by
  cases h with
  | requested => exact .moved (by simp [contexts, inFlight_request]) rfl
  | @leased r code spawns c pool hr hp ha =>
    have hin := inFlight_lease (c := c) hr
    obtain ⟨-, -, -, ⟨hidle, hn⟩ | ⟨hidle, rfl, hn⟩⟩ := Pool.acquire_eq_some ha
    · refine .moved ?_ hn
      simp only [contexts, hidle]
      exact (hin.append_right _).trans List.perm_middle.symm
    · refine .made ?_ hn
      simp only [contexts, hidle]
      exact hin.append_right _
  | unspawned hr => exact .moved ((inFlight_leave hr _).symm.append_right _) rfl
  | @answered r code c o hr ho =>
    have hin := inFlight_end hr (.answered c.id o)
    simp only [Pool.release, freePermit, Pool.refresh]
    split_ifs with hk
    · refine .returned (hin.append_right _) ?_ rfl
      exact List.perm_middle
    · exact .letGo [c] (hin.append_right _) rfl
  | @aborted e r code c how hr =>
    exact .letGo [c] ((inFlight_end hr how).append_right _) rfl
  | left hr => exact .moved ((inFlight_leave hr _).symm.append_right _) rfl
  | shut =>
    refine .letGo s.pool.idle ?_ rfl
    simp only [contexts, inFlight_refuseWaiting]
    exact List.perm_append_comm.trans (List.Perm.append_left _ (by simp [Pool.shutdown]))
  | unfit => exact .moved .rfl rfl

/-- Only a shutdown closes a pool. -/
theorem Steps.closed_eq (h : s.Steps e s') (he : e ≠ .shutdown) :
    s'.pool.closed = s.pool.closed := by
  cases h with
  | requested | unspawned | answered | aborted | left | unfit => rfl
  | leased _ _ ha =>
    have hclosed := Pool.closed_of_acquire ha
    exact hclosed
  | shut => exact (he rfl).elim

/-! ## What becomes of the requests -/

/-- Setting the phase of one request leaves the others, and the code of all. -/
theorem getElem?_setPhase {i : Nat} {q : Request} {phase : Phase}
    (h : (s.setPhase r phase).requests[i]? = some q) :
    s.requests[i]? = some q ∨ i = r ∧ q.phase = phase ∧
      ∃ before, s.requests[r]? = some before ∧ before.code = q.code := by
  simp only [setPhase, List.getElem?_modify] at h
  obtain ⟨q₀, hq₀, rfl⟩ := Option.map_eq_some_iff.1 h
  split_ifs with hir
  · subst hir
    exact .inr ⟨rfl, rfl, q₀, hq₀, rfl⟩
  · exact .inl hq₀

theorem codes_setPhase (s : PoolRun) (r : Nat) (phase : Phase) :
    (s.setPhase r phase).requests.map (·.code) = s.requests.map (·.code) := by
  refine List.ext_getElem? fun i => ?_
  simp only [setPhase, List.getElem?_map, List.getElem?_modify]
  cases s.requests[i]? with
  | none => rfl
  | some q =>
    simp only [Option.map_eq_map, Option.map_some]
    split_ifs <;> rfl

theorem codes_refuseWaiting (requests : List Request) :
    (refuseWaiting requests).map (·.code) = requests.map (·.code) := by
  rw [refuseWaiting, List.map_map]
  congr 1
  funext q
  simp only [Function.comp]
  split <;> rfl

/-- The requests keep their codes and their order, and a new one is the last. -/
theorem Steps.codes (h : s.Steps e s') :
    s'.requests.map (·.code) = s.requests.map (·.code) ++ e.code?.toList := by
  cases h with
  | requested => simp [PoolEvent.code?]
  | leased | unspawned | answered | left =>
    exact (codes_setPhase _ _ _).trans (List.append_nil _).symm
  | aborted _ he =>
    refine (codes_setPhase _ _ _).trans ?_
    rcases he with rfl | rfl | rfl <;> exact (List.append_nil _).symm
  | shut => exact (codes_refuseWaiting _).trans (List.append_nil _).symm
  | unfit he => rw [he]; exact (List.append_nil _).symm

/-- How a step ends a request: it answers with what the context makes of the code, or
makes no context and leaves the pool alone, or does neither. -/
inductive Ends (s : PoolRun) (e : PoolEvent) (s' : PoolRun) (i : Nat) (code : String) :
    RequestEnd → Prop
  | answered {c : Context} {o : Outcome} (he : e = .answer i)
      (hr : s.requests[i]? = some ⟨code, .executing c⟩)
      (ho : (c.evaluate s.pool.config code).outcome = some o) :
    Ends s e s' i code (.answered c.id o)
  | unspawned {m : String} (hp : s'.pool = s.pool) : Ends s e s' i code (.failed (.spawn m))
  | otherwise {how : RequestEnd} (ho : ∀ id o, how ≠ .answered id o)
      (hm : ∀ m, how ≠ .failed (.spawn m)) : Ends s e s' i code how

/-- A request that has ended did so before, or in this step, in one of the ways listed. -/
theorem Steps.ends {i : Nat} {how : RequestEnd} (h : s.Steps e s')
    (hi : s'.requests[i]? = some ⟨code, .ended how⟩) :
    s.requests[i]? = some ⟨code, .ended how⟩ ∨ s.Ends e s' i code how := by
  cases h with
  | @requested code' =>
    rcases Nat.lt_or_ge i s.requests.length with hlt | hge
    · exact .inl (by rwa [List.getElem?_append_left hlt] at hi)
    · right
      rw [List.getElem?_append_right hge, List.getElem?_singleton] at hi
      split_ifs at hi with _ hclosed
      · cases hi
        exact .otherwise nofun nofun
      · cases hi
  | leased =>
    obtain hi | ⟨-, hph, -⟩ := getElem?_setPhase hi
    · exact .inl hi
    · cases hph
  | unspawned =>
    obtain hi | ⟨-, hph, -⟩ := getElem?_setPhase hi
    · exact .inl hi
    · cases hph
      exact .inr (.unspawned rfl)
  | @answered r code' c o hr ho =>
    obtain hi | ⟨rfl, hph, q, hq, hcode⟩ := getElem?_setPhase hi
    · exact .inl hi
    · cases hph
      obtain rfl := Option.some.inj (hr.symm.trans hq)
      obtain rfl : code' = code := hcode
      exact .inr (.answered rfl hr ho)
  | aborted _ _ ho hm =>
    obtain hi | ⟨-, hph, -⟩ := getElem?_setPhase hi
    · exact .inl hi
    · cases hph
      exact .inr (.otherwise ho hm)
  | left =>
    obtain hi | ⟨-, hph, -⟩ := getElem?_setPhase hi
    · exact .inl hi
    · cases hph
      exact .inr (.otherwise nofun nofun)
  | shut =>
    simp only [refuseWaiting, List.getElem?_map] at hi
    obtain ⟨q, hq, hi⟩ := Option.map_eq_some_iff.1 hi
    split at hi
    · cases hi
      exact .inr (.otherwise nofun nofun)
    · exact .inl (hi ▸ hq)
  | unfit => exact .inl hi

end PoolRun

end LiveScene.Sandbox
