import LiveScene.Proofs.Sandbox.Events
import Mathlib.Data.List.Induction

/-!
# No context is shared

A request that executes holds a permit and a context, and the two invariants
that make this exclusive depend on each other: the free permits and the
contexts in flight make up the capacity, and the contexts in flight and the
idle ones are all different, known to the pool and not cancelled.
`PoolRun.Sound` is both together with the books of the pool, and every step
keeps it (`PoolRun.Sound.step`).

A context that a pool has made and no longer knows never comes back
(`PoolRun.Gone`, `PoolRun.gone_run`), and one that is given up is gone. From
this `PoolRun.exclusive` follows for all orders of events.
-/

namespace LiveScene.Sandbox

namespace PoolRun

variable {config : Config} {s s' : PoolRun} {e : PoolEvent} {r id : Nat} {c : Context}
  {code : String}

/-- The context that an event makes a pool give up: it goes away, its time is over, or
the caller of its request stops waiting. -/
def gaveUp? (s : PoolRun) : PoolEvent → Option Context
  | .lost r | .timeout r | .drop r => s.contextOf? r
  | .request _ | .grant _ _ | .answer _ | .shutdown => none

/-- The ids of the contexts given up in the course of events. -/
def givenUp (s : PoolRun) : List PoolEvent → List Nat
  | [] => []
  | e :: es => (s.gaveUp? e).toList.map Context.id ++ (s.step e).givenUp es

/-- What holds of a pool at all times. -/
structure Sound (config : Config) (s : PoolRun) : Prop where
  config_eq : s.pool.config = config
  permits : s.pool.permits + s.inFlight.length = Pool.capacity config
  active : s.pool.active.Perm (s.inFlight.map Context.id)
  idle_le : s.pool.idle.length ≤ config.maxIdle
  distinct : (s.contexts.map Context.id).Nodup
  known : ∀ c ∈ s.contexts, c.id < s.pool.nextId ∧ c.cancelled = false

/-- A context that the pool has made and that is neither in flight nor idle. -/
def Gone (s : PoolRun) (id : Nat) : Prop :=
  id < s.pool.nextId ∧ ∀ c ∈ s.contexts, c.id ≠ id

/-! ## Moving contexts -/

/-- Moving contexts keeps all of them known and none cancelled. -/
theorem Moves.known (hm : s.Moves s')
    (hk : ∀ c ∈ s.contexts, c.id < s.pool.nextId ∧ c.cancelled = false) :
    ∀ c ∈ s'.contexts, c.id < s'.pool.nextId ∧ c.cancelled = false := by
  intro d hd
  cases hm with
  | moved hc hn => exact hn ▸ hk d (hc.mem_iff.1 hd)
  | made hc hn =>
    rcases List.mem_cons.1 (hc.mem_iff.1 hd) with rfl | hd
    · exact ⟨by rw [hn]; exact Nat.lt_succ_self _, rfl⟩
    · have := hk d hd
      exact ⟨by omega, this.2⟩
  | @returned c others hc hc' hn =>
    rcases List.mem_cons.1 (hc'.mem_iff.1 hd) with rfl | hd
    · exact hn ▸ hk c (hc.mem_iff.2 (by simp))
    · exact hn ▸ hk d (hc.mem_iff.2 (by simp [hd]))
  | letGo _ hc hn => exact hn ▸ hk d (hc.mem_iff.2 (by simp [hd]))

/-- It keeps all of them different. -/
theorem Moves.distinct (hm : s.Moves s')
    (hk : ∀ c ∈ s.contexts, c.id < s.pool.nextId ∧ c.cancelled = false)
    (hd : (s.contexts.map Context.id).Nodup) : (s'.contexts.map Context.id).Nodup := by
  cases hm with
  | moved hc _ => exact (hc.map _).nodup_iff.2 hd
  | made hc _ =>
    refine (hc.map _).nodup_iff.2 (List.nodup_cons.2 ⟨fun hmem => ?_, hd⟩)
    obtain ⟨c, hc, hid⟩ := List.mem_map.1 hmem
    have hlt := (hk c hc).1
    rw [hid] at hlt
    exact Nat.lt_irrefl _ hlt
  | returned hc hc' _ =>
    have hd' := (hc.map Context.id).nodup_iff.1 hd
    exact (hc'.map _).nodup_iff.2 hd'
  | letGo _ hc _ =>
    have hd' := (hc.map Context.id).nodup_iff.1 hd
    rw [List.map_append] at hd'
    exact (List.nodup_append.1 hd').2.1

/-- What is gone stays so: ids are never given twice. -/
theorem Moves.gone (hm : s.Moves s') (hg : s.Gone id) : s'.Gone id := by
  obtain ⟨hlt, hne⟩ := hg
  cases hm with
  | moved hc hn => exact ⟨hn ▸ hlt, fun d hd => hne d (hc.mem_iff.1 hd)⟩
  | made hc hn =>
    refine ⟨by omega, fun d hd => ?_⟩
    rcases List.mem_cons.1 (hc.mem_iff.1 hd) with rfl | hd
    · exact (Nat.ne_of_lt hlt).symm
    · exact hne d hd
  | @returned c others hc hc' hn =>
    refine ⟨hn ▸ hlt, fun d hd => ?_⟩
    rcases List.mem_cons.1 (hc'.mem_iff.1 hd) with rfl | hd
    · exact hne c (hc.mem_iff.2 (by simp))
    · exact hne d (hc.mem_iff.2 (by simp [hd]))
  | letGo _ hc hn => exact ⟨hn ▸ hlt, fun d hd => hne d (hc.mem_iff.2 (by simp [hd]))⟩

/-! ## The invariant -/

/-- A new pool is sound. -/
theorem sound_new (config : Config) : (new config).Sound config where
  config_eq := rfl
  permits := rfl
  active := .refl _
  idle_le := Nat.zero_le _
  distinct := List.nodup_nil
  known := nofun

/-- Leasing a context takes a permit with it. -/
theorem Sound.lease {pool : Pool} {spawns : Bool} (hs : s.Sound config)
    (hr : s.requests[r]? = some ⟨code, .waiting⟩) (hp : s.pool.permits ≠ 0)
    (ha : s.pool.acquire spawns = some (c, pool)) :
    ({ s with pool := { pool with permits := pool.permits - 1 } }.setPhase r
      (.executing c)).Sound config := by
  have hmoves := (Steps.leased hr hp ha).moves
  have hin := inFlight_lease (c := c) hr
  obtain ⟨hconfig, hpermits, hactive, hidle⟩ := Pool.acquire_eq_some ha
  refine ⟨hconfig.trans hs.config_eq, ?_, ?_, ?_, hmoves.distinct hs.known hs.distinct,
    hmoves.known hs.known⟩
  · have hlen := hin.length_eq
    have hsum := hs.permits
    rw [List.length_cons] at hlen
    change pool.permits - 1 + (s.setPhase r (.executing c)).inFlight.length = _
    omega
  · change pool.active.Perm _
    rw [hactive]
    exact (hs.active.cons _).trans (hin.map _).symm
  · have hle := hs.idle_le
    change pool.idle.length ≤ _
    rcases hidle with ⟨hidle, -⟩ | ⟨hidle, -, -⟩
    · rw [hidle, List.length_cons] at hle
      omega
    · rwa [← hidle]

/-- A request that executes ends, and its context and its permit are given back. -/
theorem Sound.giveBack {pool : Pool} {how : RequestEnd} (hs : s.Sound config)
    (hr : s.requests[r]? = some ⟨code, .executing c⟩)
    (hmoves : s.Moves ({ s with pool := freePermit pool }.setPhase r (.ended how)))
    (hconfig : pool.config = s.pool.config) (hpermits : pool.permits = s.pool.permits)
    (hactive : pool.active = s.pool.active.erase c.id)
    (hidle : pool.idle.length ≤ config.maxIdle) :
    ({ s with pool := freePermit pool }.setPhase r (.ended how)).Sound config := by
  have hin := inFlight_end hr how
  refine ⟨hconfig.trans hs.config_eq, ?_, ?_, hidle, hmoves.distinct hs.known hs.distinct,
    hmoves.known hs.known⟩
  · have hlen := hin.length_eq
    have hsum := hs.permits
    rw [List.length_cons] at hlen
    change pool.permits + 1 + (s.setPhase r (.ended how)).inFlight.length = _
    omega
  · change pool.active.Perm _
    rw [hactive]
    have := (hs.active.trans (hin.map Context.id)).erase c.id
    rwa [List.map_cons, List.erase_cons_head] at this

/-- A request that never had a context leaves a pool sound. -/
theorem Sound.leave {how : RequestEnd} (hs : s.Sound config)
    (hr : s.requests[r]? = some ⟨code, .waiting⟩)
    (hmoves : s.Moves (s.setPhase r (.ended how))) :
    (s.setPhase r (.ended how)).Sound config := by
  have hin := inFlight_leave hr how
  exact ⟨hs.config_eq, hin.length_eq ▸ hs.permits, hs.active.trans (hin.map _), hs.idle_le,
    hmoves.distinct hs.known hs.distinct, hmoves.known hs.known⟩

/-- Every step of a sound pool is to a sound one. -/
theorem Steps.sound (hs : s.Sound config) (h : s.Steps e s') : s'.Sound config := by
  have hmoves := h.moves
  have hdistinct := hmoves.distinct hs.known hs.distinct
  have hknown := hmoves.known hs.known
  cases h with
  | @requested code =>
    have hin := inFlight_request (s := s) code s.pool.closed
    exact ⟨hs.config_eq, hin ▸ hs.permits, hin ▸ hs.active, hs.idle_le, hdistinct, hknown⟩
  | leased hr hp ha => exact hs.lease hr hp ha
  | unspawned hr | left hr => exact hs.leave hr hmoves
  | answered hr =>
    refine hs.giveBack hr hmoves rfl rfl rfl ?_
    have hle := hs.idle_le
    simp only [Pool.release, Pool.refresh]
    split_ifs with hk
    · simp only [Bool.and_eq_true, decide_eq_true_eq] at hk
      rw [List.length_cons, ← hs.config_eq]
      exact hk.2
    · exact hle
  | aborted hr => exact hs.giveBack hr hmoves rfl rfl rfl hs.idle_le
  | shut =>
    have hin := inFlight_refuseWaiting (s := s) s.pool.shutdown
    exact ⟨hs.config_eq, hin ▸ hs.permits, hin ▸ hs.active, Nat.zero_le _, hdistinct, hknown⟩
  | unfit => exact hs

/-- Every event leaves a sound pool sound. -/
theorem Sound.step (hs : s.Sound config) (e : PoolEvent) : (s.step e).Sound config :=
  (steps_step s e).sound hs

/-- Every run from a new pool is sound. -/
theorem sound_run (config : Config) (es : List PoolEvent) :
    ((new config).run es).Sound config := by
  suffices ∀ s : PoolRun, s.Sound config → (s.run es).Sound config from this _ (sound_new config)
  induction es with
  | nil => exact fun s hs => hs
  | cons e es ih => exact fun s hs => ih _ (hs.step e)

theorem run_append (s : PoolRun) (es more : List PoolEvent) :
    s.run (es ++ more) = (s.run es).run more :=
  List.foldl_append

/-! ## Contexts in use -/

/-- The contexts in flight differ from each other and from the idle ones, which also differ. -/
theorem Sound.distinct_parts (hs : s.Sound config) :
    (s.inFlight.map Context.id).Nodup ∧ (s.pool.idle.map Context.id).Nodup ∧
      ∀ i ∈ s.inFlight.map Context.id, ∀ j ∈ s.pool.idle.map Context.id, i ≠ j := by
  have hdistinct := hs.distinct
  rw [contexts, List.map_append] at hdistinct
  exact List.nodup_append.1 hdistinct

/-- No two requests have one context. -/
theorem Sound.contextOf?_inj {r' : Nat} {c' : Context} (hs : s.Sound config)
    (hc : s.contextOf? r = some c) (hc' : s.contextOf? r' = some c') (hid : c'.id = c.id) :
    r' = r := by
  by_contra hne
  obtain ⟨code, hr⟩ := contextOf?_eq_some.1 hc
  have hkeep : (s.setPhase r (.ended .dropped)).contextOf? r' = some c' := by
    obtain ⟨code', hr'⟩ := contextOf?_eq_some.1 hc'
    refine contextOf?_eq_some.2 ⟨code', ?_⟩
    simp only [setPhase]
    rw [List.getElem?_modify_ne _ _ (Ne.symm hne), hr']
  have hin := (inFlight_end hr .dropped).map Context.id
  have hnodup := hin.nodup_iff.1 hs.distinct_parts.1
  rw [List.map_cons, List.nodup_cons] at hnodup
  exact hnodup.1 (hid ▸ List.mem_map_of_mem (mem_inFlight hkeep))

/-- No idle context is that of a request. -/
theorem Sound.ne_of_mem_idle {d : Context} (hs : s.Sound config)
    (hc : s.contextOf? r = some c) (hd : d ∈ s.pool.idle) : d.id ≠ c.id := by
  obtain ⟨-, -, hdisjoint⟩ := hs.distinct_parts
  exact (hdisjoint _ (List.mem_map_of_mem (mem_inFlight hc)) _ (List.mem_map_of_mem hd)).symm

/-! ## Contexts given up -/

/-- An event that gives a context up ends the request that executes in it. -/
theorem step_of_gaveUp? (h : s.gaveUp? e = some c) : ∃ r code how,
    s.requests[r]? = some ⟨code, .executing c⟩ ∧ s.step e = s.abort r c how := by
  cases e with
  | lost r | timeout r =>
    have hc : s.contextOf? r = some c := h
    obtain ⟨code, hr⟩ := contextOf?_eq_some.1 hc
    exact ⟨r, code, _, hr, by simp only [step, hc]; rfl⟩
  | drop r =>
    have hc : s.contextOf? r = some c := h
    obtain ⟨code, hr⟩ := contextOf?_eq_some.1 hc
    exact ⟨r, code, _, hr, by simp only [step, hr]; rfl⟩
  | _ => cases h

/-- A context that is given up is gone. -/
theorem Sound.gone_of_gaveUp? (hs : s.Sound config) (h : s.gaveUp? e = some c) :
    (s.step e).Gone c.id := by
  obtain ⟨r, code, how, hr, hstep⟩ := step_of_gaveUp? h
  have hperm : s.contexts.Perm (c :: (s.abort r c how).contexts) :=
    (inFlight_end hr how).append_right _
  have hdistinct := (hperm.map Context.id).nodup_iff.1 hs.distinct
  rw [List.map_cons, List.nodup_cons] at hdistinct
  rw [hstep]
  refine ⟨(hs.known c (hperm.mem_iff.2 (by simp))).1, fun d hd hid => ?_⟩
  exact hdistinct.1 (hid ▸ List.mem_map_of_mem hd)

/-- A context that is gone stays so. -/
theorem gone_run (hg : s.Gone id) (es : List PoolEvent) : (s.run es).Gone id := by
  induction es generalizing s with
  | nil => exact hg
  | cons e es ih => exact ih ((steps_step s e).moves.gone hg)

/-- All that were given up in a run are gone. -/
theorem Sound.gone_of_mem_givenUp {es : List PoolEvent} (hs : s.Sound config)
    (h : id ∈ s.givenUp es) : (s.run es).Gone id := by
  induction es generalizing s with
  | nil => cases h
  | cons e es ih =>
    rcases List.mem_append.1 h with h | h
    · obtain ⟨c, hc, rfl⟩ := List.mem_map.1 h
      exact gone_run (hs.gone_of_gaveUp? (Option.mem_toList.1 hc)) es
    · exact ih (hs.step e) h

/-! ## The ends of requests -/

/-- A run adds a request for each code that it brings, in order. -/
theorem codes_run (s : PoolRun) (es : List PoolEvent) :
    (s.run es).requests.map (·.code) =
      s.requests.map (·.code) ++ es.filterMap PoolEvent.code? := by
  induction es generalizing s with
  | nil => exact (List.append_nil _).symm
  | cons e es ih =>
    have hrun : s.run (e :: es) = (s.step e).run es := rfl
    rw [hrun, ih, (steps_step s e).codes, List.append_assoc, List.filterMap_cons]
    cases e.code? <;> rfl

theorem endOf?_eq_some {how : RequestEnd} :
    s.endOf? r = some how ↔ ∃ code, s.requests[r]? = some ⟨code, .ended how⟩ := by
  unfold endOf?
  constructor
  · intro h
    split at h
    · rename_i code how' hr
      obtain rfl := Option.some.inj h
      exact ⟨code, hr⟩
    · cases h
  · rintro ⟨code, hr⟩
    rw [hr]

/-- A request that fails because no context could be made leaves the pool as it was. -/
theorem pool_of_spawn_failed {m : String} (h0 : s.endOf? r = none)
    (h1 : (s.step e).endOf? r = some (.failed (.spawn m))) : (s.step e).pool = s.pool := by
  obtain ⟨code, hr⟩ := endOf?_eq_some.1 h1
  rcases (steps_step s e).ends hr with hr | hends
  · rw [endOf?_eq_some.2 ⟨code, hr⟩] at h0
    cases h0
  · cases hends with
    | unspawned hp => exact hp
    | otherwise _ hm => exact (hm m rfl).elim

/-- A request is answered by the context it executes in, with what this makes of its code. -/
theorem answered_run {es : List PoolEvent} {o : Outcome}
    (h : ((new config).run es).requests[r]? = some ⟨code, .ended (.answered id o)⟩) :
    ∃ before after c, es = before ++ .answer r :: after ∧
      ((new config).run before).contextOf? r = some c ∧ c.id = id ∧
      (c.evaluate config code).outcome = some o := by
  induction es using List.reverseRecOn with
  | nil => cases h
  | append_singleton es e ih =>
    rw [run_append] at h
    rcases (steps_step _ e).ends h with h | hends
    · obtain ⟨before, after, c, rfl, hc⟩ := ih h
      exact ⟨before, after ++ [e], c, by simp, hc⟩
    · cases hends with
      | @answered c o he hr ho =>
        rw [(sound_run config es).config_eq] at ho
        exact ⟨es, [], c, by rw [he], contextOf?_eq_some.2 ⟨code, hr⟩, rfl, ho⟩
      | otherwise ho _ => exact (ho id o rfl).elim

/-- Who gets an outcome gets that of the own code, from a context that was never cancelled. -/
theorem outcome_of_answered {es : List PoolEvent} {o : Outcome}
    (h : ((new config).run es).endOf? r = some (.answered id o)) :
    ∃ code before after c, (es.filterMap PoolEvent.code?)[r]? = some code ∧
      es = before ++ .answer r :: after ∧
      ((new config).run before).contextOf? r = some c ∧ c.id = id ∧
      c.cancelled = false ∧ id ∉ (new config).givenUp before ∧
      (c.evaluate config code).outcome = some o := by
  obtain ⟨code, hr⟩ := endOf?_eq_some.1 h
  obtain ⟨before, after, c, hes, hc, rfl, ho⟩ := answered_run hr
  have hmem : c ∈ ((new config).run before).contexts :=
    List.mem_append_left _ (mem_inFlight hc)
  have hcodes : ((new config).run es).requests.map (·.code) = es.filterMap PoolEvent.code? :=
    codes_run _ es
  refine ⟨code, before, after, c, ?_, hes, hc, rfl,
    ((sound_run config before).known c hmem).2, fun hgiven => ?_, ho⟩
  · rw [← hcodes, List.getElem?_map, hr]
    rfl
  · exact ((sound_new config).gone_of_mem_givenUp hgiven).2 c hmem rfl

/-- A pool never shares a context, in whatever order requests come in, get their permits,
are answered, lose their contexts, run out of time and are dropped, and whenever it is shut
down. No more contexts execute and none more are idle than the configuration allows. A
context in flight belongs to one request and is not idle; one given up is never idle and
never in flight again. Where no context can be made the pool stays as it was. And who gets
an outcome gets that of the own code, from a context that was never cancelled. -/
theorem exclusive (config : Config) (es : List PoolEvent) :
    let s := (new config).run es
    (s.inFlight.length ≤ max 1 config.maxContexts ∧
      s.pool.active.Perm (s.inFlight.map Context.id)) ∧
    (s.pool.idle.length ≤ config.maxIdle ∧ (s.pool.idle.map Context.id).Nodup) ∧
    (∀ r c, s.contextOf? r = some c →
      (∀ r' c', s.contextOf? r' = some c' → c'.id = c.id → r' = r) ∧
        ∀ d ∈ s.pool.idle, d.id ≠ c.id) ∧
    (∀ id ∈ (new config).givenUp es,
      (∀ d ∈ s.pool.idle, d.id ≠ id) ∧ ∀ r c, s.contextOf? r = some c → c.id ≠ id) ∧
    (∀ e r m, s.endOf? r = none → (s.step e).endOf? r = some (.failed (.spawn m)) →
      (s.step e).pool = s.pool) ∧
    ∀ r id o, s.endOf? r = some (.answered id o) →
      ∃ code before after c, (es.filterMap PoolEvent.code?)[r]? = some code ∧
        es = before ++ .answer r :: after ∧
        ((new config).run before).contextOf? r = some c ∧ c.id = id ∧
        c.cancelled = false ∧ id ∉ (new config).givenUp before ∧
        (c.evaluate config code).outcome = some o := by
  intro s
  have hs : s.Sound config := sound_run config es
  refine ⟨⟨?_, hs.active⟩, ⟨hs.idle_le, hs.distinct_parts.2.1⟩, fun r c hc => ⟨?_, ?_⟩,
    fun id hid => ?_, ?_, ?_⟩
  · have hsum := hs.permits
    unfold Pool.capacity at hsum
    omega
  · exact fun r' c' hc' hid => hs.contextOf?_inj hc hc' hid
  · exact fun d hd => hs.ne_of_mem_idle hc hd
  · obtain ⟨-, hgone⟩ := (sound_new config).gone_of_mem_givenUp hid
    exact ⟨fun d hd => hgone d (List.mem_append_right _ hd),
      fun r c hc => hgone c (List.mem_append_left _ (mem_inFlight hc))⟩
  · exact fun e r m h0 h1 => pool_of_spawn_failed h0 h1
  · exact fun r id o hend => outcome_of_answered hend

/-- A request whose caller leaves gives its context up, and the next one gets another. -/
example :
    let es : List PoolEvent :=
      [.request "1", .grant 0 true, .drop 0, .request "2", .grant 1 true]
    (new .default).givenUp es = [0] ∧
      (((new .default).run es).contextOf? 1).map Context.id = some 1 := by
  decide

end PoolRun

end LiveScene.Sandbox
