import LiveScene.Proofs.Sandbox.Accounts

/-!
# Contexts are made when they are needed

A pool that has room for all its contexts makes a new one only when all it
has are executing. As long as none is given up and the pool stays open, the
number it has made is therefore the greatest number that executed at one
moment so far, `PoolRun.peak`, and every one of them is idle or executing
(`PoolRun.AtPeak`, which each entry into the accounts keeps). In particular
one context serves all executions that never overlap (`PoolRun.made_at_peak`).
-/

namespace LiveScene.Sandbox

namespace Phase

/-- The context that serves a request, or that served it if it has an outcome. -/
def servedBy? : Phase → Option Nat
  | .executing c => some c.id
  | .ended (.answered id _) => some id
  | _ => none

end Phase

namespace PoolRun

variable {config : Config} {s s' : PoolRun} {e : PoolEvent} {es : List PoolEvent} {r id : Nat}

/-- The context that serves a request, or that served it if it has an outcome. -/
def servedBy? (s : PoolRun) (r : Nat) : Option Nat := s.requests[r]?.bind (·.phase.servedBy?)

/-- The greatest number of contexts that executed at one moment in the course of events. -/
def peak (s : PoolRun) : List PoolEvent → Nat
  | [] => s.inFlight.length
  | e :: es => max s.inFlight.length ((s.step e).peak es)

/-- No context is given up in the course of events, and the pool is not shut down. -/
structure Smooth (s : PoolRun) (es : List PoolEvent) : Prop where
  kept : s.givenUp es = []
  opened : .shutdown ∉ es

/-- As many contexts were made as executed at a peak, and all are idle or executing. -/
structure AtPeak (s : PoolRun) (peak : Nat) : Prop where
  made : s.tally.created = peak
  held : s.tally.idle + s.tally.executing = s.tally.created
  opened : s.pool.closed = false

/-! ## Runs and their parts -/

theorem run_concat (s : PoolRun) (es : List PoolEvent) (e : PoolEvent) :
    s.run (es ++ [e]) = (s.run es).step e :=
  run_append s es [e]

/-- One more event raises the peak to what executes behind it. -/
theorem peak_concat (s : PoolRun) (es : List PoolEvent) (e : PoolEvent) :
    s.peak (es ++ [e]) = max (s.peak es) ((s.run es).step e).inFlight.length := by
  induction es generalizing s with
  | nil => rfl
  | cons a es ih =>
    have hrest := ih (s.step a)
    change max _ ((s.step a).peak (es ++ [e])) = max (max _ _) _
    rw [hrest, Nat.max_assoc]
    rfl

/-- What is given up in two runs is given up in one behind the other. -/
theorem givenUp_append (s : PoolRun) (es more : List PoolEvent) :
    s.givenUp (es ++ more) = s.givenUp es ++ (s.run es).givenUp more := by
  induction es generalizing s with
  | nil => rfl
  | cons e es ih =>
    change _ ++ (s.step e).givenUp (es ++ more) = (_ ++ (s.step e).givenUp es) ++ _
    rw [ih, List.append_assoc]
    rfl

/-- The first part of a smooth run is smooth. -/
theorem Smooth.before {more : List PoolEvent} (h : s.Smooth (es ++ more)) : s.Smooth es where
  kept := by
    have hkept := h.kept
    rw [givenUp_append] at hkept
    exact (List.append_eq_nil_iff.1 hkept).1
  opened := fun hmem => h.opened (List.mem_append_left _ hmem)

/-- Its last event gives up nothing and is no shutdown. -/
theorem Smooth.last (h : s.Smooth (es ++ [e])) : (s.run es).gaveUp? e = none ∧ e ≠ .shutdown := by
  have hkept := h.kept
  rw [givenUp_append] at hkept
  have hlast : ((s.run es).gaveUp? e).toList.map Context.id ++ [] = [] :=
    (List.append_eq_nil_iff.1 hkept).2
  refine ⟨?_, fun he => h.opened (by simp [he])⟩
  cases hc : (s.run es).gaveUp? e with
  | none => rfl
  | some c => simp [hc] at hlast

/-! ## One step -/

/-- A new context is made at a peak only, and where there is room an execution leaves its
context to the next one. -/
theorem AtPeak.entry {peak : Nat} {t : Tally} (hs : s.AtPeak peak) (h : s.Entry e t)
    (hroom : peak ≤ s.pool.config.maxIdle) (hkept : s.gaveUp? e = none) (he : e ≠ .shutdown) :
    t.created = max peak t.executing ∧ t.idle + t.executing = t.created := by
  obtain ⟨hmade, hheld, hopened⟩ := hs
  cases h with
  | none => omega
  | reused | created | kept => dsimp only; omega
  | released hex hfull =>
    -- the context just released is in flight, so the others leave room for it
    rcases hfull with hclosed | hfull
    · rw [hopened] at hclosed
      cases hclosed
    · omega
  | discarded hex hc => rw [hkept] at hc; cases hc
  | emptied hshut => exact (he hshut).elim

/-- No more contexts execute than the pool may have. -/
theorem Sound.executing_le (hs : s.Sound config) :
    s.inFlight.length ≤ max 1 config.maxContexts := by
  have hsum := hs.permits
  unfold Pool.capacity at hsum
  omega

/-- So the peak is no greater. -/
theorem peak_le (config : Config) (es : List PoolEvent) :
    (new config).peak es ≤ max 1 config.maxContexts := by
  induction es using List.reverseRecOn with
  | nil => exact Nat.zero_le _
  | append_singleton es e ih =>
    rw [peak_concat]
    exact Nat.max_le.2 ⟨ih, ((sound_run config es).step e).executing_le⟩

/-- A smooth run with room for all contexts has made as many as its peak. -/
theorem atPeak_run (hroom : max 1 config.maxContexts ≤ config.maxIdle)
    (h : (new config).Smooth es) : ((new config).run es).AtPeak ((new config).peak es) := by
  induction es using List.reverseRecOn with
  | nil => exact ⟨rfl, rfl, rfl⟩
  | append_singleton es e ih =>
    obtain ⟨hkept, he⟩ := h.last
    have hs := ih h.before
    have hsteps := steps_step ((new config).run es) e
    have hfits : (new config).peak es ≤ ((new config).run es).pool.config.maxIdle := by
      rw [(sound_run config es).config_eq]
      exact Nat.le_trans (peak_le config es) hroom
    obtain ⟨hmade, hheld⟩ := hs.entry hsteps.entry hfits hkept he
    rw [peak_concat, run_concat]
    exact ⟨hmade, hheld, (hsteps.closed_eq he).trans hs.opened⟩

/-! ## Who serves whom -/

/-- A context serves a request that has it, or that it answered. -/
theorem servedBy?_eq_some : s.servedBy? r = some id ↔
    (∃ c, s.contextOf? r = some c ∧ c.id = id) ∨ ∃ o, s.endOf? r = some (.answered id o) := by
  simp only [contextOf?_eq_some, endOf?_eq_some, servedBy?, Option.bind_eq_some_iff]
  constructor
  · rintro ⟨⟨code, phase⟩, hr, hid⟩
    cases phase with
    | waiting => cases hid
    | executing c => exact .inl ⟨c, ⟨code, hr⟩, Option.some.inj hid⟩
    | ended how =>
      cases how with
      | answered id' o =>
        obtain rfl := Option.some.inj hid
        exact .inr ⟨o, code, hr⟩
      | failed | dropped => cases hid
  · rintro (⟨c, ⟨code, hr⟩, rfl⟩ | ⟨o, code, hr⟩)
    · exact ⟨_, hr, rfl⟩
    · exact ⟨_, hr, rfl⟩

/-- Numbers of contexts are never used again. -/
theorem nextId_le_run (s : PoolRun) (es : List PoolEvent) :
    s.pool.nextId ≤ (s.run es).pool.nextId := by
  induction es generalizing s with
  | nil => exact Nat.le_refl _
  | cons e es ih =>
    have hstep : s.pool.nextId ≤ (s.step e).pool.nextId := by
      cases (steps_step s e).moves with
      | moved _ hn | returned _ _ hn | letGo _ _ hn => exact Nat.le_of_eq hn.symm
      | made _ hn => omega
    exact Nat.le_trans hstep (ih _)

/-- Requests are served by contexts that the pool has made. -/
theorem lt_created_of_servedBy? (h : ((new config).run es).servedBy? r = some id) :
    id < ((new config).run es).pool.stats.totalCreated := by
  rw [← (counted_run config es).nextId]
  rcases servedBy?_eq_some.1 h with ⟨c, hc, rfl⟩ | ⟨o, hend⟩
  · exact ((sound_run config es).known c (List.mem_append_left _ (mem_inFlight hc))).1
  · obtain ⟨code, before, after, c, -, rfl, hc, rfl, -⟩ := outcome_of_answered hend
    have hlt := ((sound_run config before).known c (List.mem_append_left _ (mem_inFlight hc))).1
    rw [run_append]
    exact Nat.lt_of_lt_of_le hlt (nextId_le_run _ _)

/-- A pool with room for all its contexts makes one only when it needs one. As long as none
is given up and the pool is not shut down, in whatever order requests come in, get their
permits, are answered and stop waiting: at all times it has made as many as executed at one
moment so far, and all of them are idle or executing. It never makes more than may execute
at once, and executions that never overlap are all served by the same context. -/
theorem made_at_peak (config : Config) (hroom : max 1 config.maxContexts ≤ config.maxIdle)
    (es : List PoolEvent) (h : (new config).Smooth es) (before : List PoolEvent)
    (hbefore : before <+: es) :
    let s := (new config).run before
    let made := s.pool.stats.totalCreated
    made = (new config).peak before ∧
      s.pool.idle.length + s.inFlight.length = made ∧
      made ≤ max 1 config.maxContexts ∧
      ((new config).peak before ≤ 1 → ∀ r r' id id', s.servedBy? r = some id →
        s.servedBy? r' = some id' → id = id') := by
  intro s made
  obtain ⟨after, rfl⟩ := hbefore
  obtain ⟨hmade, hheld, -⟩ := atPeak_run hroom h.before
  have hmade : made = (new config).peak before := hmade
  refine ⟨hmade, hheld, hmade ▸ peak_le config before, fun hpeak r r' id id' hr hr' => ?_⟩
  have hlt : id < made := lt_created_of_servedBy? hr
  have hlt' : id' < made := lt_created_of_servedBy? hr'
  omega

/-- Settings under which every context is kept. -/
def roomy : Config := { Config.default with maxIdle := Config.default.maxContexts }

/-- A request that is over before two others overlap. -/
def oneThenTwo : List PoolEvent :=
  [.request "1", .grant 0 true, .answer 0, .request "2", .request "3", .grant 1 true,
    .grant 2 true, .answer 1]

/-- The second of the three reuses the context of the first, and the third needs a new one. -/
theorem made_at_peak_oneThenTwo :
    max 1 roomy.maxContexts ≤ roomy.maxIdle ∧ (new roomy).Smooth oneThenTwo ∧
      (new roomy).peak oneThenTwo = 2 ∧
      ((new roomy).run oneThenTwo).pool.stats.totalCreated = 2 := by
  have hroom : max 1 roomy.maxContexts ≤ roomy.maxIdle := by decide
  have hsmooth : (new roomy).Smooth oneThenTwo := ⟨by decide +kernel, by simp [oneThenTwo]⟩
  have hpeak : (new roomy).peak oneThenTwo = 2 := by decide +kernel
  obtain ⟨hmade, -⟩ := made_at_peak roomy hroom oneThenTwo hsmooth oneThenTwo List.prefix_rfl
  exact ⟨hroom, hsmooth, hpeak, hmade.trans hpeak⟩

end PoolRun

end LiveScene.Sandbox
