import LiveScene.Command.Watch
import LiveScene.Proofs.Live.Steps
import Mathlib.Data.List.Destutter
import Mathlib.Data.List.Perm.Basic

/-!
# What a watch shows

The contents that a watch hands to tasks are those it reads, without those that
only repeat the one read before (`Watching.Tracks.spawned`). A task submits its
content at its first step, so the source shown is that of the task whose first
step came last (`Watching.Tracks.shown`).

`Watching.shown_by_last` puts this together. Where tasks take their first steps
in the order they were made, the source shown ends as the content read last.
Nothing makes them do so: `Watching.older_shown` is a watch that ends on a
content that it has read before the last one.
-/

/-! ## Lists without repetitions -/

namespace List

variable {α : Type*} [DecidableEq α]

/-- A value that repeats the last one is left out. -/
theorem destutter'_ne_concat (a : α) (l : List α) (b : α) :
    (l ++ [b]).destutter' (· ≠ ·) a =
      l.destutter' (· ≠ ·) a ++ if (a :: l).getLast? = some b then [] else [b] := by
  induction l generalizing a with
  | nil => by_cases hab : a = b <;> simp [hab]
  | cons c l ih =>
    by_cases hac : a = c
    · rw [cons_append, destutter'_cons_neg (h := not_not.2 hac),
        destutter'_cons_neg (h := not_not.2 hac), ih, hac, getLast?_cons_cons]
    · rw [cons_append, destutter'_cons_pos (h := hac), destutter'_cons_pos (h := hac), ih,
        getLast?_cons_cons, cons_append]

/-- A further element stays if it does not repeat the last one. -/
theorem destutter_ne_concat (l : List α) (b : α) :
    (l ++ [b]).destutter (· ≠ ·) =
      l.destutter (· ≠ ·) ++ if l.getLast? = some b then [] else [b] := by
  cases l with
  | nil => rfl
  | cons a l => exact destutter'_ne_concat a l b

/-- The last element stays where repetitions are removed. -/
theorem getLast?_destutter_ne (l : List α) :
    (l.destutter (· ≠ ·)).getLast? = l.getLast? := by
  induction l using reverseRecOn with
  | nil => rfl
  | append_singleton l b ih =>
    rw [destutter_ne_concat]
    split_ifs with hb
    · rw [append_nil, ih, hb, getLast?_concat]
    · rw [getLast?_concat, getLast?_concat]

end List

namespace LiveScene

open Live

namespace Live.Pipeline

variable {p q : Pipeline} {h : Happening}

/-- The sources submitted so far, in the order of their numbers. -/
def sources (p : Pipeline) : List String := p.submissions.map Submission.source

/-- A submission adds its source. -/
theorem sources_submit (p : Pipeline) (source : String) :
    (p.submit source).sources = p.sources ++ [source] := by
  simp [sources, submit, perform, put, latest, start_eq, started]

/-- A submission keeps its source. -/
theorem sources_put {s t : Submission} (hs : p.submission? t.seq = some s)
    (ht : t.source = s.source) : (p.put t).sources = p.sources := by
  have hpos := pos_of_submission? hs
  rw [submission?, if_neg (by omega)] at hs
  have hget : (p.submissions.map Submission.source)[t.seq - 1]? = some t.source := by
    rw [List.getElem?_map, hs, ht, Option.map_some]
  obtain ⟨hlt, hkept⟩ := List.getElem?_eq_some_iff.1 hget
  rw [sources, put, List.map_set, ← hkept, List.set_getElem_self, sources]

/-- Only a start adds a source or changes the one that is shown. -/
theorem Steps.source_eq (hp : p.Sound) (hs : p.Steps h q) (hh : h.isStart = false) :
    q.sources = p.sources ∧ q.store.current.source = p.store.current.source := by
  cases hs with
  | submitted => cases hh
  | @resumed s _ w hs hr =>
    have hg := hr.goes (hp.staged _ _ hs)
    refine ⟨sources_put (hg.seq ▸ hs) hg.source, ?_⟩
    rw [snapshot_perform, hg.snapshot_source]
  | @abandoned s hs _ =>
    exact ⟨sources_put (s := s) (t := { s with phase := .dropped }) (by exact hs) rfl, rfl⟩
  | ticked => exact ⟨rfl, congrArg Snapshot.source (snapshot_fire _)⟩
  | noted => exact ⟨rfl, rfl⟩
  | unfit _ => exact ⟨rfl, rfl⟩

end Live.Pipeline

namespace Command

/-- The content that is read in an event, if one is. -/
def WatchEvent.read? : WatchEvent → Option String
  | looked content => content
  | began _ | happened _ => none

namespace Watching

variable {w : Watching} {reads : List String} {e : WatchEvent} {es : List WatchEvent}

/-- What holds of a watch that has read some contents. -/
structure Tracks (w : Watching) (reads : List String) : Prop where
  sound : w.pipeline.Sound
  last : w.last = reads.getLast?
  spawned : w.spawned = reads.destutter (· ≠ ·)
  perm : (w.pipeline.sources ++ w.waiting).Perm w.spawned
  shown : w.pipeline.store.current.source = w.pipeline.sources.getLast?.getD Snapshot.defaultSource

theorem step_happened (w : Watching) {h : Happening} (hh : h.isStart = false) :
    w.step (.happened h) = { w with pipeline := w.pipeline.step h } := by
  cases h with
  | submitted => cases hh
  | _ => rfl

/-- A watch has read nothing at first. -/
theorem tracks_begin {s : Settings} {content : Option String}
    (hw : begin? s content = .ok w) : w.Tracks [] := by
  unfold begin? at hw
  split at hw
  · cases hw
  · split_ifs at hw
    obtain rfl := Except.ok.inj hw
    exact ⟨Pipeline.sound_new _ _, rfl, rfl, .nil, rfl⟩

/-- Reading a content spawns a submission of it, unless it is the last one read. -/
theorem Tracks.look (ht : w.Tracks reads) (text : String) :
    (w.look (some text)).Tracks (reads ++ [text]) := by
  unfold Watching.look
  dsimp only
  split_ifs with hlast
  -- only a content that does not repeat the last one is handed on
  · have hrep : reads.getLast? = some text := ht.last.symm.trans hlast
    have hsame : (reads ++ [text]).destutter (· ≠ ·) = reads.destutter (· ≠ ·) := by
      rw [List.destutter_ne_concat, if_pos hrep, List.append_nil]
    exact ⟨ht.sound, by simpa using hlast, ht.spawned.trans hsame.symm, ht.perm, ht.shown⟩
  · have hnew : reads.getLast? ≠ some text := ht.last ▸ hlast
    have hmore : (reads ++ [text]).destutter (· ≠ ·) = w.spawned ++ [text] := by
      rw [List.destutter_ne_concat, if_neg hnew, ht.spawned]
    refine ⟨ht.sound, by simp, hmore.symm, ?_, ht.shown⟩
    rw [← List.append_assoc]
    exact ht.perm.append_right _

/-- A submission that starts is one of those spawned. -/
theorem Tracks.began (ht : w.Tracks reads) (place : Nat) :
    (w.step (.began place)).Tracks reads := by
  simp only [step]
  split
  · rename_i text htext
    obtain ⟨hlt, rfl⟩ := List.getElem?_eq_some_iff.1 htext
    refine ⟨ht.sound.submit _, ht.last, ht.spawned, ?_, ?_⟩
    · rw [Pipeline.sources_submit, List.append_assoc]
      exact ((List.getElem_cons_eraseIdx_perm hlt).append_left _).trans ht.perm
    · rw [Pipeline.sources_submit, Pipeline.snapshot_submit]
      simp
  · exact ht

/-- What else happens to submissions leaves their sources. -/
theorem Tracks.happened (ht : w.Tracks reads) {h : Happening} (hh : h.isStart = false) :
    ({ w with pipeline := w.pipeline.step h } : Watching).Tracks reads := by
  obtain ⟨hsources, hshown⟩ := (Pipeline.steps_step ht.sound h).source_eq ht.sound hh
  exact ⟨Pipeline.sound_step ht.sound h, ht.last, ht.spawned, hsources ▸ ht.perm,
    hshown.trans (hsources ▸ ht.shown)⟩

/-- After every event the watch has read what it had, and what it reads now. -/
theorem Tracks.step (ht : w.Tracks reads) (e : WatchEvent) :
    (w.step e).Tracks (reads ++ e.read?.toList) := by
  cases e with
  | looked content =>
    cases content with
    | none => exact (List.append_nil reads).symm ▸ ht
    | some text => exact ht.look text
  | began place => exact (List.append_nil reads).symm ▸ ht.began place
  | happened h =>
    rw [show reads ++ (WatchEvent.happened h).read?.toList = reads from List.append_nil reads]
    cases hh : h.isStart with
    | false => exact step_happened w hh ▸ ht.happened hh
    | true =>
      cases h with
      | submitted => exact ht
      | _ => cases hh

/-- After a run it has read all contents, in order. -/
theorem tracks_run (ht : w.Tracks reads) (es : List WatchEvent) :
    (w.run es).Tracks (reads ++ es.filterMap WatchEvent.read?) := by
  induction es generalizing w reads with
  | nil => exact (List.append_nil reads).symm ▸ ht
  | cons e es ih =>
    have hreads : reads ++ (e :: es).filterMap WatchEvent.read? =
        reads ++ e.read?.toList ++ es.filterMap WatchEvent.read? := by
      cases he : e.read? <;> simp [he]
    exact hreads ▸ ih (ht.step e)

/-- The tasks have taken their first steps in the order they were made. -/
def InOrder (w : Watching) : Prop :=
  w.pipeline.sources ++ w.waiting = w.spawned

/-- If submissions start in the order they were spawned, they have started so after a step. -/
theorem InOrder.step (ho : w.InOrder) (hw : w.pipeline.Sound)
    (he : ∀ place, e = .began place → place = 0) : (w.step e).InOrder := by
  cases e with
  | looked content =>
    cases content with
    | none => exact ho
    | some text =>
      simp only [Watching.step, look]
      split_ifs
      · exact ho
      · rw [InOrder, ← List.append_assoc, ho]
  | began place =>
    -- the first that waits joins the sources at their end
    obtain rfl := he place rfl
    simp only [Watching.step]
    split
    · rename_i text htext
      obtain ⟨rest, hrest⟩ : ∃ rest, w.waiting = text :: rest :=
        List.head?_eq_some_iff.1 (List.head?_eq_getElem? ▸ htext)
      have hkept : w.pipeline.sources ++ ([text] ++ rest) = w.spawned :=
        (congrArg (w.pipeline.sources ++ ·) hrest).symm.trans ho
      simpa [InOrder, Pipeline.sources_submit, hrest] using hkept
    · exact ho
  | happened h =>
    cases hh : h.isStart with
    | false =>
      have hsources := ((Pipeline.steps_step hw h).source_eq hw hh).1
      rw [step_happened w hh, InOrder, hsources]
      exact ho
    | true =>
      cases h with
      | submitted => exact ho
      | _ => cases hh

/-- So it is after a run. -/
theorem inOrder_run (ho : w.InOrder) (ht : w.Tracks reads)
    (hes : ∀ place, WatchEvent.began place ∈ es → place = 0) : (w.run es).InOrder := by
  induction es generalizing w reads with
  | nil => exact ho
  | cons e es ih =>
    exact ih (ho.step ht.sound fun place he => hes place (by simp [he])) (ht.step e)
      fun place he => hes place (by simp [he])

/-- What a watch shows. Whatever is read in its looks, whenever tasks take their first steps
and however their submissions go on: the contents handed to tasks are those that were read,
without those that only repeat the one read before, each is waiting or submitted, and the
source shown is the one submitted last. If tasks take their first steps in the order they
were made and none is left waiting, it is the content read last. -/
theorem shown_by_last {s : Settings} {content : Option String}
    (hw : begin? s content = .ok w) (es : List WatchEvent) :
    let reads := es.filterMap WatchEvent.read?
    let v := w.run es
    v.spawned = reads.destutter (· ≠ ·) ∧
      (v.pipeline.sources ++ v.waiting).Perm v.spawned ∧
      v.pipeline.store.current.source =
        v.pipeline.sources.getLast?.getD Snapshot.defaultSource ∧
      ((∀ place, WatchEvent.began place ∈ es → place = 0) →
        v.pipeline.sources ++ v.waiting = v.spawned ∧
          (v.waiting = [] → v.pipeline.store.current.source =
            reads.getLast?.getD Snapshot.defaultSource)) := by
  intro reads v
  have hstart := tracks_begin hw
  have hv : v.Tracks reads := tracks_run hstart es
  refine ⟨hv.spawned, hv.perm, hv.shown, fun hes => ?_⟩
  have hnone : w.pipeline.sources ++ w.waiting = [] := by
    have hperm := hstart.perm
    rw [hstart.spawned] at hperm
    exact List.perm_nil.1 hperm
  have ho : v.InOrder := inOrder_run (hnone.trans hstart.spawned.symm) hstart hes
  refine ⟨ho, fun hwaiting => ?_⟩
  have hsources : v.pipeline.sources = reads.destutter (· ≠ ·) := by
    rw [← hv.spawned, ← ho, hwaiting, List.append_nil]
  rw [hv.shown, hsources, List.getLast?_destutter_ne]

/-- A watch that reads `1` again after another content shows it again. -/
theorem shown_by_last_again :
    let w : Watching := ⟨none, [], [], .ofSettings .default⟩
    let es : List WatchEvent := [.looked (some "1"), .looked (some "2"), .began 0, .looked none,
      .looked (some "2"), .began 0, .looked (some "1"), .began 0]
    begin? .default (some "1") = .ok w ∧ (w.run es).spawned = ["1", "2", "1"] ∧
      (w.run es).pipeline.store.current.source = "1" := by
  intro w es
  have hw : begin? .default (some "1") = .ok w := rfl
  obtain ⟨hspawned, -, -, hlast⟩ := shown_by_last hw es
  exact ⟨hw, hspawned.trans rfl, ((hlast (by simp [es])).2 rfl).trans rfl⟩

/-- Two contents are read, and the task of the later one takes its first step first. When all
that was submitted has ended behind the fence, the earlier content is shown. -/
theorem older_shown :
    let w : Watching := ⟨none, [], [], .ofSettings .default⟩
    let es : List WatchEvent := [.looked (some "1"), .looked (some "2"), .began 1, .began 0,
      .happened (.compiled 1 (.ok (.clean "2"))), .happened (.compiled 2 (.ok (.clean "1"))),
      .happened (.executed 2 (.ok (.ok .empty)))]
    let v := w.run es
    begin? .default (some "1") = .ok w ∧ v.pipeline.fence = true ∧ v.waiting = [] ∧
      v.pipeline.latest = 2 ∧ v.pipeline.result? 1 = some (.ok ⟨1, .superseded, false⟩) ∧
      v.pipeline.result? 2 = some (.ok ⟨2, .blocked .runtime, true⟩) ∧
      (es.filterMap WatchEvent.read?).getLast? = some "2" ∧
      v.pipeline.store.current.source = "1" :=
  ⟨rfl, rfl, rfl, rfl, rfl, rfl, rfl, rfl⟩

end Watching

end Command

end LiveScene
