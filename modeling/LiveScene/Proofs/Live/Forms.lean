import LiveScene.Live.Snapshot
import LiveScene.Proofs.Json.Forms

/-!
# Snapshots and their forms

A snapshot that changes lead to has a form that decodes (`Snapshot.Sendable`
is what every change keeps). What it decodes to is the snapshot, but for one
field: notes whose default export is `null` are written like notes without
any, and come back as these. A timing of `null` is cleared when it is set, so
it makes no such difference.

`Snapshot.reached_decodes` says both of all snapshots that changes lead to
from the first one; `null_export_lost` is a snapshot that does not come back.
-/

namespace LiveScene

open Json

/-! ## Forms of records and figures -/

/-- A number is read back as a size if it is one. -/
theorem Json.size?_settled (n : Nat) :
    (Json.nat n).settled.size? = if n ≤ maxSize then some n else none := by
  rw [Json.nat, settled]
  rfl

namespace Scene.RenderedFigure

/-- Whether all numbers of a figure are finite. -/
def finite (f : RenderedFigure) : Bool :=
  f.left.isFinite && f.top.isFinite && f.width.isFinite && f.height.isFinite

/-- Figures of finite numbers read back. -/
theorem readsBack : ReadsBack settled toJson ofJson? finite := by
  intro f
  simp [toJson, ofJson?, carrier_settled.record?, List.lookup_cons, Json.required,
    carrier_settled.str, Json.str?, carrier_settled.float, ite_some_bind, finite, ite_and]

end Scene.RenderedFigure

namespace Diagnostics

/-- Whether the place of a record is within the range of sizes. -/
def ErrorRecord.placed (r : ErrorRecord) : Bool :=
  decide (r.line ≤ maxSize) && decide (r.col ≤ maxSize)

/-- Records with places in range read back. -/
theorem ErrorRecord.readsBack : ReadsBack settled toJson ofJson? placed := by
  intro r
  simp [toJson, ofJson?, carrier_settled.record?, List.lookup_cons, Json.required,
    carrier_settled.str, Json.str?, Json.size?_settled, ite_some_bind, placed, ite_and]

/-- Whether all records of a bundle are placed. -/
def ErrorBundle.placed (b : ErrorBundle) : Bool :=
  b.grammar.all ErrorRecord.placed && b.semantic.all ErrorRecord.placed &&
    b.runtime.all ErrorRecord.placed

/-- So do bundles of them. -/
theorem ErrorBundle.readsBack : ReadsBack settled toJson ofJson? placed := by
  intro b
  have records := ErrorRecord.readsBack.list? carrier_settled
  simp [toJson, ofJson?, carrier_settled.record?, List.lookup_cons, Json.required, records _,
    ite_some_bind, placed, ite_and]

end Diagnostics

namespace Live

open Diagnostics Scene

/-- Whether the figures of an output are finite, or its errors placed. -/
def Output.sendable : Output → Bool
  | ok figures => figures.all RenderedFigure.finite
  | err b => b.placed

/-- So does what is shown, if its figures or its errors do. -/
theorem Output.readsBack : ReadsBack settled toJson ofJson? sendable := by
  intro o
  cases o with
  | ok figures =>
    have hfigures := RenderedFigure.readsBack.list? carrier_settled figures
    simp [toJson, ofJson?, settled_obj, Json.variant?, Json.repeats, List.lookup_cons,
      Json.required, carrier_settled.str, Json.str?, hfigures, ite_some_bind, sendable]
  | err b =>
    have hb := ErrorBundle.readsBack b
    show _ = if b.placed then some (err b) else none
    simp [toJson, ofJson?, settled_obj, Json.variant?, Json.repeats, List.lookup_cons,
      Json.required, carrier_settled.str, Json.str?, hb, ite_some_bind]

/-! ## Forms of notes and snapshots -/

theorem filter_isNull {o : Option Json} : o.filter (!·.isNull) = o ↔ o ≠ some .null := by
  cases o with
  | none => simp
  | some v => cases v <;> simp [Json.isNull]

/-- Notes with a default export of `null` taken for none. -/
def DebugInfo.withoutNull (d : DebugInfo) : DebugInfo :=
  { d with defaultExport := d.defaultExport.filter (!·.isNull) }

/-- Notes keep their default export unless it is `null`. -/
theorem DebugInfo.withoutNull_eq_self {d : DebugInfo} :
    d.withoutNull = d ↔ d.defaultExport ≠ some .null := by
  cases d
  simp [withoutNull, filter_isNull]

/-- A snapshot with a default export of `null` in its notes taken for none. -/
def Snapshot.withoutNull (s : Snapshot) : Snapshot :=
  { s with debug := s.debug.map DebugInfo.withoutNull }

/-- An optional value of JSON comes back if it is settled, or as nothing if it is `null`. -/
theorem optional_settled {o : Option Json} (h : ∀ v ∈ o, v.settled = v) :
    Json.optional (some ·.settled) (some (Json.ofOption id o).settled) =
      some (o.filter (!·.isNull)) := by
  cases o with
  | none => rw [Json.ofOption, settled]; rfl
  | some v =>
    have hv : v.settled = v := h v rfl
    rw [Json.ofOption, id, hv]
    by_cases hnull : v = .null
    · rw [hnull]
      rfl
    · rw [optional_of_ne_null hnull, hv, filter_isNull.2 fun h => hnull (Option.some.inj h)]
      rfl

/-- Notes come back without a default export that is `null`. -/
theorem DebugInfo.ofJson?_toJson {d : DebugInfo} (h : ∀ v ∈ d.defaultExport, v.settled = v) :
    ofJson? d.toJson.settled = some d.withoutNull := by
  simp [toJson, ofJson?, carrier_settled.record?, List.lookup_cons, Json.required,
    carrier_settled.str, Json.str?, optional_settled h, withoutNull]

namespace Transition

/-- What a change must be made of to be sent: finite figures, placed records, and values of
JSON, which are settled. -/
def Sendable : Transition → Prop
  | source _ => True
  | output o => o.sendable = true
  | errors b => b.placed = true
  | debug d => ∀ v ∈ d.defaultExport, v.settled = v
  | perf v => v.settled = v

end Transition

namespace Snapshot

/-- What holds of a snapshot that sendable changes lead to. -/
structure Sendable (s : Snapshot) : Prop where
  output : s.output.sendable = true
  prevOk : s.prevOk.all RenderedFigure.finite = true
  export_settled : ∀ d ∈ s.debug, ∀ v ∈ d.defaultExport, v.settled = v
  perf_settled : ∀ v ∈ s.perf, v.settled = v
  perf_ne_null : s.perf ≠ some .null

variable {s : Snapshot}

theorem sendable_default : default.Sendable where
  output := rfl
  prevOk := rfl
  export_settled := nofun
  perf_settled := nofun
  perf_ne_null := nofun

/-- A change to something sendable keeps a snapshot sendable. -/
theorem Sendable.apply (hs : s.Sendable) {t : Transition} (ht : t.Sendable) :
    (s.apply t).Sendable := by
  match t with
  | .source _ => exact { hs with }
  | .output (.ok _) => exact { hs with output := ht, prevOk := ht }
  | .output (.err _) => exact { hs with output := ht }
  | .errors _ => exact { hs with output := ht }
  | .debug d =>
    refine { hs with export_settled := ?_ }
    rintro _ ⟨⟩
    exact ht
  | .perf v =>
    refine { hs with perf_settled := ?_, perf_ne_null := ?_ }
    · intro w hw
      simp only [Snapshot.apply] at hw
      split_ifs at hw <;> cases hw
      exact ht
    · cases v <;> simp [Snapshot.apply, Json.isNull]

/-- So do such changes one after another. -/
theorem Sendable.foldl_apply (hs : s.Sendable) {ts : List Transition}
    (hts : ∀ t ∈ ts, t.Sendable) : (ts.foldl Snapshot.apply s).Sendable := by
  induction ts generalizing s with
  | nil => exact hs
  | cons t ts ih =>
    rw [List.forall_mem_cons] at hts
    exact ih (hs.apply hts.1) hts.2

/-- The notes of a sendable snapshot come back without a default export that is `null`. -/
theorem debug_readsBack (hs : s.Sendable) :
    Json.optional DebugInfo.ofJson? (some (Json.ofOption DebugInfo.toJson s.debug).settled) =
      some (s.debug.map DebugInfo.withoutNull) := by
  match hd : s.debug with
  | none => rw [Json.ofOption, settled]; rfl
  | some d =>
    have hnull : d.toJson.settled ≠ .null := by simp [DebugInfo.toJson, settled_obj]
    rw [Json.ofOption, optional_of_ne_null hnull,
      DebugInfo.ofJson?_toJson (hs.export_settled d hd)]
    rfl

/-- So does the whole snapshot. -/
theorem ofJson?_toJson (hs : s.Sendable) : ofJson? s.toJson.settled = some s.withoutNull := by
  have output : Output.ofJson? s.output.toJson.settled = some s.output := by
    rw [Output.readsBack, if_pos hs.output]
  have prevOk := RenderedFigure.readsBack.list? carrier_settled s.prevOk
  rw [if_pos hs.prevOk] at prevOk
  have perf := optional_settled hs.perf_settled
  rw [filter_isNull.2 hs.perf_ne_null] at perf
  simp [toJson, ofJson?, carrier_settled.record?, List.lookup_cons, Json.required,
    carrier_settled.str, Json.str?, output, prevOk, perf, debug_readsBack hs,
    withoutNull]

/-- A snapshot comes back as it was unless its notes have a default export that is `null`. -/
theorem withoutNull_eq_self :
    s.withoutNull = s ↔ ∀ d ∈ s.debug, d.defaultExport ≠ some .null := by
  obtain ⟨_, _, _, debug, _⟩ := s
  cases debug with
  | none => simp [withoutNull]
  | some d => simp [withoutNull, DebugInfo.withoutNull_eq_self]

/-- Snapshots and their forms. A snapshot that changes lead to from the first one, all of them
of finite figures, placed records and values of JSON, has a form that decodes: to the snapshot
with a default export of `null` taken for none. So it comes back itself exactly if its notes
have no such default export. -/
theorem reached_decodes (ts : List Transition) (hts : ∀ t ∈ ts, t.Sendable) :
    let s := ts.foldl apply default
    ofJson? s.toJson.settled = some s.withoutNull ∧
      (ofJson? s.toJson.settled = some s ↔ ∀ d ∈ s.debug, d.defaultExport ≠ some .null) := by
  intro s
  have hback : ofJson? s.toJson.settled = some s.withoutNull :=
    ofJson?_toJson (sendable_default.foldl_apply hts)
  refine ⟨hback, ?_⟩
  rw [hback, Option.some_inj]
  exact withoutNull_eq_self

/-- Figures, errors, notes and a timing of `null`, one after another. -/
theorem reached_decodes_errors :
    let ts : List Transition := [.source "a", .output (.ok [⟨"f", 0, 0, 10, 0.5⟩]),
      .debug ⟨"a", some (.arr [.float 1.5, .null])⟩, .perf (.int 3),
      .errors ⟨[], [], [⟨"m", 1, 2⟩]⟩, .perf .null]
    (∀ t ∈ ts, t.Sendable) ∧
      ofJson? (ts.foldl apply default).toJson.settled = some (ts.foldl apply default) := by
  intro ts
  have hts : ∀ t ∈ ts, t.Sendable := by
    simp only [ts, List.forall_mem_cons]
    refine ⟨trivial, rfl, fun v hv => ?_, rfl, rfl, rfl, List.forall_mem_nil _⟩
    obtain rfl := Option.some.inj hv
    rfl
  refine ⟨hts, (reached_decodes ts hts).2.2 fun d hd => ?_⟩
  obtain rfl := Option.some.inj hd
  simp

/-- Notes with a default export of `null` are lost: what comes back has none. -/
theorem null_export_lost :
    let s := [Transition.debug ⟨"b", some .null⟩].foldl apply default
    (∀ t ∈ [Transition.debug ⟨"b", some .null⟩], t.Sendable) ∧
      ofJson? s.toJson.settled ≠ some s ∧
      ofJson? s.toJson.settled = some ([.debug ⟨"b", none⟩].foldl apply default) := by
  intro s
  have hts : ∀ t ∈ [Transition.debug ⟨"b", some .null⟩], t.Sendable := by
    rw [List.forall_mem_singleton]
    rintro _ ⟨⟩
    rfl
  refine ⟨hts, fun h => ?_, rfl⟩
  have := congrArg (fun o => o.bind fun s => s.debug.bind (·.defaultExport)) h
  exact nomatch this

end Snapshot

end Live

end LiveScene
