import LiveScene.Live.Store
import Mathlib.Data.List.Basic

/-!
# No change goes untold

A run of a store is any list of changes and firings. A change comes with time
passing, so that its notice can wait, or without; a notice fires at any moment
after it was scheduled.

`Store.places` lists where in the course of snapshots those stand that were
told, each place noted at the moment of telling. `Store.Tidy` is what a store
keeps through every event (`Store.tidy_step`, `Store.tidy_run`): one notice is
scheduled if the store is dirty and none otherwise, and what was told lies in
increasing order, up to the current snapshot unless a notice is still to come.
`Store.told_all` draws the conclusion: no snapshot is told twice or out of
order, and once nothing is scheduled the last change has been told.
-/

namespace LiveScene.Live

/-- Something that happens to a store. -/
inductive StoreEvent where
  /-- A change; `timed` says whether time passes, so that its notice can wait. -/
  | applied (timed : Bool) (t : Transition)
  /-- The scheduled notice is sent. -/
  | fired

/-- Whether an event is a change. -/
def StoreEvent.isChange : StoreEvent → Bool
  | applied .. => true
  | fired => false

namespace Store

/-- What an event does. -/
def step (s : Store) : StoreEvent → Store
  | .applied timed t => s.apply timed t
  | .fired => s.fire

/-- What a list of events does. -/
def run (s : Store) (es : List StoreEvent) : Store :=
  es.foldl step s

/-- All snapshots in the order they were current. -/
def snapshots (s : Store) : List Snapshot :=
  s.history ++ [s.current]

/-- The place of the snapshot that is told by an event, if one is. -/
def place? (s : Store) (e : StoreEvent) : Option Nat :=
  if (s.step e).notices.sent.length = s.notices.sent.length then none
  else some (s.step e).history.length

/-- The places of the snapshots that are told in a run. -/
def places (s : Store) : List StoreEvent → List Nat
  | [] => []
  | e :: es => (s.place? e).toList ++ (s.step e).places es

/-- The snapshots at the places `ps` are those that were told, and at least `behind` later
ones have not been told. -/
structure Told (s : Store) (behind : Nat) (ps : List Nat) : Prop where
  sent : s.notices.sent.map some = ps.map (s.snapshots[·]?)
  increasing : ps.Pairwise (· < ·)
  within : ∀ i ∈ ps, i + behind ≤ s.history.length
  room : ps.length + behind ≤ s.history.length
  count : s.sentCount = ps.length

/-- A change leaves one snapshot that has not been told. -/
theorem Told.advance {s : Store} {ps : List Nat} (h : s.Told 0 ps) (t : Transition) :
    (s.advance t).Told 1 ps where
  sent := by
    refine h.sent.trans (List.map_congr_left fun i hi => ?_)
    have hlt : i < s.snapshots.length := by
      have := h.within i hi
      simp [snapshots]
      omega
    have happ : (s.advance t).snapshots = s.snapshots ++ [s.current.apply t] := rfl
    rw [happ, List.getElem?_append_left hlt]
  increasing := h.increasing
  within i hi := by
    have := h.within i hi
    simp only [Store.advance, List.length_append, List.length_singleton]
    omega
  room := by
    have := h.room
    simp only [Store.advance, List.length_append, List.length_singleton]
    omega
  count := h.count

theorem Told.weaken {s : Store} {n : Nat} {ps : List Nat} (h : s.Told n ps) : s.Told 0 ps :=
  { h with
    within := fun i hi => Nat.le_of_add_right_le (h.within i hi)
    room := Nat.le_of_add_right_le h.room }

/-- The current snapshot is told, if it was not. -/
theorem Told.flush {s : Store} {ps : List Nat} (h : s.Told 1 ps) :
    s.flush.Told 0 (ps ++ [s.history.length]) where
  sent := by
    have hlast : s.snapshots[s.history.length]? = some s.current := by simp [snapshots]
    have hsent : s.flush.notices.sent = s.notices.sent ++ [s.current] := rfl
    rw [hsent, List.map_append, List.map_append, h.sent, List.map_singleton, List.map_singleton,
      ← hlast]
    rfl
  increasing := by
    refine List.pairwise_append.2 ⟨h.increasing, List.pairwise_singleton _ _, fun i hi j hj => ?_⟩
    rw [List.mem_singleton.1 hj]
    exact h.within i hi
  within i hi := by
    rcases List.mem_append.1 hi with hi | hi
    · exact Nat.le_of_succ_le (h.within i hi)
    · exact Nat.le_of_eq (List.mem_singleton.1 hi)
  room := by
    have := h.room
    simpa [Store.flush] using this
  count := by
    simp [Store.flush, h.count]

/-- What a store that has told the snapshots at the places `ps` keeps. -/
structure Tidy (s : Store) (ps : List Nat) : Prop where
  dirty : s.dirty = true ↔ s.scheduled = 1
  once : s.scheduled ≤ 1
  told : s.Told s.scheduled ps
  newest : s.scheduled = 0 → s.history ≠ [] → ps.getLast? = some s.history.length

/-- A store starts tidy, with nothing told. -/
theorem tidy_ofInitial (initial : Snapshot) (capacity : Nat) :
    (ofInitial initial capacity).Tidy [] where
  dirty := by simp [ofInitial]
  once := by simp [ofInitial]
  told := by constructor <;> simp [ofInitial, Broadcast.ofCapacity]
  newest _ h := (h rfl).elim

/-- Telling the current snapshot leaves a store tidy, with no notice scheduled. -/
theorem Tidy.flush {s : Store} {ps : List Nat} (h : s.Told 1 ps) :
    Tidy { s.flush with scheduled := 0 } (ps ++ [s.history.length]) where
  dirty := by simp [Store.flush]
  once := Nat.zero_le _
  told := ⟨h.flush.sent, h.flush.increasing, h.flush.within, h.flush.room, h.flush.count⟩
  newest _ _ := by simp [Store.flush]

/-- An event that sends nothing tells nothing. -/
theorem place?_eq_none {s : Store} {e : StoreEvent}
    (h : (s.step e).notices = s.notices) : s.place? e = none := by
  simp [place?, h]

/-- What an event sends is told at the end of the snapshots. -/
theorem place?_eq_some {s : Store} {e : StoreEvent} {a : Snapshot}
    (h : (s.step e).notices = s.notices.send a) :
    s.place? e = some (s.step e).history.length := by
  simp [place?, h, Broadcast.send]

/-- A change leaves a store tidy, whether its notice waits or not. -/
theorem Tidy.apply {s : Store} {ps : List Nat} (h : s.Tidy ps) (timed : Bool) (t : Transition) :
    (s.apply timed t).Tidy (ps ++ (s.place? (.applied timed t)).toList) := by
  have hstep : s.step (.applied timed t) = (s.advance t).announce timed := rfl
  by_cases hd : s.dirty = true
  · have hs : (s.advance t).announce timed = s.advance t := if_pos hd
    rw [place?_eq_none (by rw [hstep, hs]; rfl), Store.apply, hs]
    have h1 : s.scheduled = 1 := h.dirty.1 hd
    refine ⟨h.dirty, h.once, ?_, fun h0 => absurd (h1.symm.trans h0) (by decide)⟩
    have htold := h.told.weaken.advance t
    rw [← h1] at htold
    simpa [Store.advance] using htold
  · have h0 : s.scheduled = 0 := by
      have := mt h.dirty.2 hd
      have := h.once
      omega
    have htold : (s.advance t).Told 1 ps := Told.advance (h0 ▸ h.told) t
    cases timed with
    | false =>
      have hs : (s.advance t).announce false =
          { (s.advance t).flush with scheduled := 0 } := by
        simp [announce, Store.advance, Store.flush, hd, h0]
      rw [place?_eq_some (a := (s.advance t).current) (by rw [hstep, hs]; rfl), hstep,
        Store.apply, hs]
      exact Tidy.flush htold
    | true =>
      have hs : (s.advance t).announce true =
          { s.advance t with dirty := true, scheduled := 1 } := by
        simp [announce, Store.advance, hd, h0]
      rw [place?_eq_none (by rw [hstep, hs]; rfl), Store.apply, hs, Option.toList_none,
        List.append_nil]
      exact ⟨by simp, Nat.le_refl 1, ⟨htold.sent, htold.increasing, htold.within, htold.room,
        htold.count⟩, fun h => absurd h Nat.one_ne_zero⟩

/-- So does a notice that fires. -/
theorem Tidy.fire {s : Store} {ps : List Nat} (h : s.Tidy ps) :
    s.fire.Tidy (ps ++ (s.place? .fired).toList) := by
  have hstep : s.step .fired = s.fire := rfl
  by_cases h0 : s.scheduled = 0
  · have hs : s.fire = s := if_pos h0
    rw [place?_eq_none (by rw [hstep, hs]), hs, Option.toList_none, List.append_nil]
    exact h
  · have h1 : s.scheduled = 1 := by
      have := h.once
      omega
    have hs : s.fire = { s.flush with scheduled := 0 } := by
      simp [Store.fire, h1]
    rw [place?_eq_some (a := s.current) (by rw [hstep, hs]; rfl), hstep, hs]
    exact Tidy.flush (h1 ▸ h.told)

/-- Every event leaves a store tidy. -/
theorem tidy_step {s : Store} {ps : List Nat} (h : s.Tidy ps) (e : StoreEvent) :
    (s.step e).Tidy (ps ++ (s.place? e).toList) := by
  cases e with
  | applied timed t => exact h.apply timed t
  | fired => exact h.fire

/-- So does every run. -/
theorem tidy_run {s : Store} {ps : List Nat} (h : s.Tidy ps) (es : List StoreEvent) :
    (s.run es).Tidy (ps ++ s.places es) := by
  induction es generalizing s ps with
  | nil => simpa [places, run] using h
  | cons e es ih =>
    have := ih (tidy_step h e)
    rwa [List.append_assoc] at this

/-- The current snapshot is the one at the place of all changes so far. -/
theorem length_history_run (s : Store) (es : List StoreEvent) :
    (s.run es).history.length = s.history.length + es.countP StoreEvent.isChange := by
  induction es generalizing s with
  | nil => rfl
  | cons e es ih =>
    have hrun : s.run (e :: es) = (s.step e).run es := rfl
    rw [hrun, ih, List.countP_cons]
    cases e with
    | applied timed t =>
      have : (s.step (.applied timed t)).history = s.history ++ [s.current] := by
        simp only [step, Store.apply, announce]
        split_ifs <;> rfl
      simp [this, StoreEvent.isChange]
      omega
    | fired =>
      have : (s.step .fired).history = s.history := by
        simp only [step, Store.fire]
        split_ifs <;> rfl
      simp [this, StoreEvent.isChange]

/-- A tidy store without a scheduled notice has told the current snapshot, if there has been a
change. -/
theorem Tidy.sent_getLast? {s : Store} {ps : List Nat} (h : s.Tidy ps) (h0 : s.scheduled = 0)
    (hne : s.history ≠ []) : s.notices.sent.getLast? = some s.current := by
  have hmap := congrArg List.getLast? h.told.sent
  rw [List.getLast?_map, List.getLast?_map, h.newest h0 hne] at hmap
  have hlast : s.snapshots[s.history.length]? = some s.current := by simp [snapshots]
  rw [Option.map_some, hlast] at hmap
  obtain ⟨a, ha, hsome⟩ := Option.map_eq_some_iff.1 hmap
  rw [ha, hsome]

/-- Notices are coalesced and none is lost. From a first snapshot on, whatever changes come
and whenever notices fire: the store is dirty exactly while one notice is scheduled, never
are two, and firing leaves none; while none is scheduled and something has changed, the last
snapshot told is the current one; what was told are the snapshots at increasing places of
the course of all snapshots; and the count of notices is their number and at most the number
of changes. -/
theorem told_all (initial : Snapshot) (capacity : Nat) (es : List StoreEvent) :
    let first := ofInitial initial capacity
    let s := first.run es
    (s.dirty = true ↔ s.scheduled = 1) ∧ s.scheduled ≤ 1 ∧ s.fire.scheduled = 0 ∧
      (s.scheduled = 0 → (∃ e ∈ es, e.isChange = true) →
        (first.places es).getLast? = some s.history.length ∧
          s.notices.sent.getLast? = some s.current) ∧
      (first.places es).Pairwise (· < ·) ∧
      s.notices.sent.map some = (first.places es).map (s.snapshots[·]?) ∧
      s.sentCount = s.notices.sent.length ∧
      s.sentCount ≤ es.countP StoreEvent.isChange := by
  intro first s
  have h : s.Tidy (first.places es) := tidy_run (tidy_ofInitial initial capacity) es
  have hlen : s.history.length = es.countP StoreEvent.isChange := by
    have := length_history_run first es
    rwa [show first.history = [] from rfl, List.length_nil, Nat.zero_add] at this
  refine ⟨h.dirty, h.once, ?_, fun h0 hex => ?_, h.told.increasing, h.told.sent, ?_, ?_⟩
  · have := h.once
    unfold Store.fire
    split_ifs with h0
    · exact h0
    · show s.scheduled - 1 = 0
      omega
  · have hne : s.history ≠ [] := by
      rw [← List.length_pos_iff, hlen]
      exact List.countP_pos_iff.2 hex
    exact ⟨h.newest h0 hne, h.sent_getLast? h0 hne⟩
  · have := congrArg List.length h.told.sent
    rw [List.length_map, List.length_map] at this
    rw [h.told.count, this]
  · have := h.told.room
    have := h.told.count
    omega

end Store

end LiveScene.Live
