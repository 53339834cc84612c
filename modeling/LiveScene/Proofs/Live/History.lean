import LiveScene.Proofs.Live.Changes

/-!
# The history of a store

A store keeps every snapshot it went through. The changes among the events
that happen to it lead from the first snapshot to the current one, and
notices, whenever they fire, change none of them (`Store.snapshots_run`).

A change sets the fields it names and no others: `Transition.source?` and its
like give the new value of a field, `Snapshot.Becomes` says it of all fields.
What only some changes set is as the last of these left it
(`Snapshot.foldl_apply_field`), so the last success is that of the last output
with figures.

`Store.history_exact` says this of every run from a first snapshot.
-/

namespace LiveScene.Live

open Diagnostics Scene

/-- The change that an event makes. -/
def StoreEvent.change? : StoreEvent → Option Transition
  | applied _ t => some t
  | fired => none

namespace Transition

/-- The source that a change sets. -/
def source? : Transition → Option String
  | source text => some text
  | output _ | errors _ | debug _ | perf _ => none

/-- The output that a change sets; errors set one too. -/
def output? : Transition → Option Output
  | output o => some o
  | errors b => some (.err b)
  | source _ | debug _ | perf _ => none

/-- The last success that a change sets: only an output with figures does. -/
def figures? : Transition → Option (List RenderedFigure)
  | output (.ok figures) => some figures
  | source _ | output (.err _) | errors _ | debug _ | perf _ => none

/-- The notes that a change sets. -/
def debug? : Transition → Option DebugInfo
  | debug d => some d
  | source _ | output _ | errors _ | perf _ => none

/-- The timing that a change sets; `null` clears it. -/
def perf? : Transition → Option (Option Json)
  | perf .null => some none
  | perf v => some (some v)
  | source _ | output _ | errors _ | debug _ => none

end Transition

namespace Snapshot

/-- One snapshot follows another: every field is the one that the change sets, or as it was. -/
structure Becomes (x : Snapshot) (t : Transition) (y : Snapshot) : Prop where
  source : y.source = t.source?.getD x.source
  output : y.output = t.output?.getD x.output
  prevOk : y.prevOk = t.figures?.getD x.prevOk
  debug : y.debug = t.debug?.or x.debug
  perf : y.perf = t.perf?.getD x.perf

/-- Applying a change sets the fields that it names and no others. -/
theorem becomes_apply (x : Snapshot) (t : Transition) : x.Becomes t (x.apply t) := by
  match t with
  | .source _ | .output (.ok _) | .output (.err _) | .errors _ | .debug _ =>
    exact ⟨rfl, rfl, rfl, rfl, rfl⟩
  | .perf v => cases v <;> exact ⟨rfl, rfl, rfl, rfl, rfl⟩

/-- A field is as the last change that sets it left it. -/
theorem foldl_apply_field {β : Type} {field : Snapshot → β} {set? : Transition → Option β}
    (h : ∀ x t, field (x.apply t) = (set? t).getD (field x)) (ts : List Transition)
    (x : Snapshot) :
    field (ts.foldl apply x) = (ts.filterMap set?).getLast?.getD (field x) := by
  induction ts generalizing x with
  | nil => rfl
  | cons t ts ih =>
    rw [List.foldl_cons, ih, h, List.filterMap_cons]
    cases set? t with
    | none => rfl
    | some b => rw [List.getLast?_cons, Option.getD_some, Option.getD_some]

end Snapshot

namespace Store

variable (s : Store)

/-- Each change files the snapshot before it. -/
theorem history_step (e : StoreEvent) :
    (s.step e).history = s.history ++ (e.change?.map fun _ => s.current).toList := by
  cases e with
  | applied timed t =>
    simp only [step, Store.apply, announce]
    split_ifs <;> rfl
  | fired =>
    simp only [step, Store.fire]
    split_ifs <;> simp [flush, StoreEvent.change?]

/-- The current snapshot is the one that the change makes. -/
theorem current_step (e : StoreEvent) :
    (s.step e).current = (e.change?.map s.current.apply).getD s.current := by
  cases e with
  | applied timed t =>
    simp only [step, Store.apply, announce]
    split_ifs <;> rfl
  | fired =>
    simp only [step, Store.fire]
    split_ifs <;> rfl

/-- The snapshots of a run are those that its changes make one after another. -/
theorem snapshots_run (es : List StoreEvent) :
    (s.run es).snapshots =
      s.history ++ (es.filterMap StoreEvent.change?).scanl Snapshot.apply s.current := by
  induction es generalizing s with
  | nil => rfl
  | cons e es ih =>
    have hrun : s.run (e :: es) = (s.step e).run es := rfl
    rw [hrun, ih, history_step, current_step, List.filterMap_cons]
    cases e.change? with
    | none => simp
    | some t => simp

/-- The history of a store is exact. From a first snapshot on, whatever changes come and
whenever notices fire: there are as many earlier snapshots as changes; the earlier snapshots
and the current one are those that the changes make one after another from the first; each
follows the one before it by the change between them, which sets the fields it names and no
others; and the last success in each is that of the last output with figures among the
changes before it, or that of the first snapshot if there was none. -/
theorem history_exact (initial : Snapshot) (capacity : Nat) (es : List StoreEvent) :
    let s := (ofInitial initial capacity).run es
    let ts := es.filterMap StoreEvent.change?
    s.history.length = ts.length ∧
      s.history ++ [s.current] = ts.scanl Snapshot.apply initial ∧
      (∀ i t, ts[i]? = some t → ∃ x y, s.snapshots[i]? = some x ∧ s.snapshots[i + 1]? = some y ∧
        x.Becomes t y) ∧
      ∀ i x, s.snapshots[i]? = some x →
        x.prevOk = ((ts.take i).filterMap Transition.figures?).getLast?.getD initial.prevOk := by
  intro s ts
  have hall : s.snapshots = ts.scanl Snapshot.apply initial := snapshots_run _ es
  refine ⟨?_, hall, fun i t ht => ?_, fun i x hx => ?_⟩
  · have := congrArg List.length hall
    simpa [snapshots] using this
  · obtain ⟨hi, rfl⟩ := List.getElem?_eq_some_iff.1 ht
    have hlen : i + 1 < (ts.scanl Snapshot.apply initial).length := by simpa using hi
    rw [hall]
    refine ⟨_, _, List.getElem?_eq_getElem (Nat.lt_of_succ_lt hlen),
      List.getElem?_eq_getElem hlen, ?_⟩
    rw [List.getElem_succ_scanl]
    exact Snapshot.becomes_apply _ _
  · rw [hall] at hx
    obtain ⟨hi, rfl⟩ := List.getElem?_eq_some_iff.1 hx
    rw [List.getElem_scanl]
    exact Snapshot.foldl_apply_field (fun x t => (Snapshot.becomes_apply x t).prevOk) _ _

end Store

end LiveScene.Live
