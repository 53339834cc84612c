import LiveScene.Proofs.Diagnostics.Frames
import LiveScene.Sandbox.Engine

/-!
# The trace of a fault says where it happened

A fault keeps its place twice: as a position and as the last frame of its trace.
`classifyTrace_faultAt` is that the trace alone gives the same place, whatever
the message in front of its frames holds, and the first line of the message
that can be shown. Where the message is one such line the two ways to classify
a fault agree.

`TraceFrame.written` is the frame that a line of the trace shows; the theory of
such frames does the rest.
-/

namespace LiveScene.Sandbox

open Text Script Diagnostics

/-! ## Written numbers -/

/-- Numbers are written in digits. -/
theorem isNumeral_toDigits (n : Nat) : IsNumeral (Nat.toDigits 10 n) :=
  ⟨Nat.toDigits_ne_nil, fun _ hc => Nat.isDigit_of_mem_toDigits (by decide) (by decide) hc⟩

/-- A size is read back from its digits. -/
theorem size?_toDigits {n : Nat} (hn : n ≤ Json.maxSize) : size? (Nat.toDigits 10 n) = some n := by
  have hall : (Nat.toDigits 10 n).all Char.isDigit = true :=
    List.all_eq_true.2 (isNumeral_toDigits n).2
  have hvalue : (Nat.toDigits 10 n).foldl (fun n c => n * 10 + (c.toNat - '0'.toNat)) 0 = n := by
    have := Nat.ofDigitChars_toDigits (b := 10) (n := n) (by decide) (by decide)
    rw [Nat.ofDigitChars_eq_foldl] at this
    simpa [Nat.mul_comm] using this
  simp only [size?, hall, if_true, hvalue, hn]

/-! ## The lines of a trace -/

/-- The frame that the line of a frame shows. -/
def TraceFrame.written (f : TraceFrame) (hname : ∀ n ∈ f.function, IsFrameName n.toList) :
    WrittenFrame where
  name := f.function.map String.toList
  file := sourceName.toList
  line := Nat.toDigits 10 f.line
  col := Nat.toDigits 10 f.col
  isFrameName_name := by
    intro n hn
    obtain ⟨name, hf, rfl⟩ := Option.map_eq_some_iff.1 hn
    exact hname name hf
  isFrameName_file := by decide +kernel
  colon_notMem := by decide +kernel
  isNumeral_line := isNumeral_toDigits _
  isNumeral_col := isNumeral_toDigits _

/-- The text of a frame is a line of a trace behind a line end. -/
theorem TraceFrame.toList_text (f : TraceFrame) (hname : ∀ n ∈ f.function, IsFrameName n.toList) :
    f.text.toList = '\n' :: frameLine (f.written hname).place := by
  cases hf : f.function <;> simp [TraceFrame.text, hf, frameLine, WrittenFrame.place, written]

/-- The frames that a fault shows: those that have a place. -/
def located (index : LineIndex) (frames : List (Option String × Option Place)) :
    List TraceFrame :=
  frames.filterMap fun (function, place) =>
    place.map fun p => ⟨function, p.line, byteColumn index p⟩

/-- A fault has the place of its last frame, and all of them in its trace. -/
theorem faultAt_eq (index : LineIndex) (message : String)
    (frames : List (Option String × Option Place)) : faultAt index message frames =
      ⟨message, (located index frames).getLast?.map fun f => (f.line, f.col),
        (located index frames).foldl (fun text f => text ++ f.text) message⟩ :=
  rfl

/-- A trace is the message with a line for each frame behind it. -/
theorem exists_written (message : String) {fs : List TraceFrame}
    (hname : ∀ f ∈ fs, ∀ n ∈ f.function, IsFrameName n.toList) :
    ∃ ws : List WrittenFrame,
      ws.map (fun w => (w.line, w.col)) =
        fs.map (fun f => (Nat.toDigits 10 f.line, Nat.toDigits 10 f.col)) ∧
      (fs.foldl (fun text f => text ++ f.text) message).toList =
        message.toList ++ ws.flatMap fun w => '\n' :: frameLine w.place := by
  induction fs generalizing message with
  | nil => exact ⟨[], by simp⟩
  | cons f fs ih =>
    obtain ⟨ws, hws, htext⟩ := ih (message ++ f.text) fun g hg => hname g (by simp [hg])
    refine ⟨f.written (hname f (by simp)) :: ws, by simp [hws, TraceFrame.written], ?_⟩
    rw [List.foldl_cons, htext, String.toList_append, f.toList_text (hname f (by simp))]
    simp

/-- The trace of frames gives the place of the last one. -/
theorem classifyTrace_foldl (message : String) (fs : List TraceFrame) {last : TraceFrame}
    (hlast : fs.getLast? = some last)
    (hname : ∀ f ∈ fs, ∀ n ∈ f.function, IsFrameName n.toList)
    (hline : last.line ≤ Json.maxSize) (hcol : last.col ≤ Json.maxSize) :
    classifyTrace (fs.foldl (fun text f => text ++ f.text) message) =
      .classified ⟨String.ofList (traceMessage message.toList), last.line, last.col⟩ := by
  obtain ⟨ws, hws, htext⟩ := exists_written message hname
  obtain ⟨w, hw, hdigits⟩ : ∃ w, ws.getLast? = some w ∧
      (w.line, w.col) = (Nat.toDigits 10 last.line, Nat.toDigits 10 last.col) := by
    have := congrArg List.getLast? hws
    rw [List.getLast?_map, List.getLast?_map, hlast] at this
    exact Option.map_eq_some_iff.1 this
  obtain ⟨hl, hc⟩ := Prod.mk.inj hdigits
  obtain ⟨init, rfl⟩ := List.getLast?_eq_some_iff.1 hw
  have hframes : (frames (fs.foldl (fun text f => text ++ f.text) message).toList).getLast? =
      some w.frame := by
    rw [htext, List.flatMap_append, List.flatMap_singleton, ← List.append_assoc]
    exact frames_getLast? _ w
  have hmessage := traceMessage_append_lines message.toList (init ++ [w])
  rw [← htext] at hmessage
  simp only [classifyTrace, hframes, WrittenFrame.frame, hl, hc, size?_toDigits hline,
    size?_toDigits hcol, hmessage]

/-- A column in bytes is at most one behind the size of the text. -/
theorem byteColumn_le (index : LineIndex) (p : Place) : byteColumn index p ≤ index.size + 1 := by
  simp only [byteColumn, LineIndex.position]
  omega

/-- The last frame that has a place is the last one that a fault shows. -/
theorem located_getLast? (index : LineIndex) {frames : List (Option String × Option Place)}
    {p : Place} (hp : (frames.filterMap (·.2)).getLast? = some p) :
    ∃ f, (located index frames).getLast? = some f ∧ f.line = p.line ∧
      f.col = byteColumn index p := by
  have hmap : (located index frames).map (fun f => (f.line, f.col)) =
      (frames.filterMap (·.2)).map fun p => (p.line, byteColumn index p) := by
    simp only [located, List.map_filterMap]
    congr 1
    funext ⟨_, place⟩
    cases place <;> rfl
  have := congrArg List.getLast? hmap
  rw [List.getLast?_map, List.getLast?_map, hp] at this
  obtain ⟨f, hf, he⟩ := Option.map_eq_some_iff.1 this
  exact ⟨f, hf, (Prod.mk.inj he).1, (Prod.mk.inj he).2⟩

/-- The trace of a fault gives its position. Let at least one frame have a place, and let
the functions be named by names that a trace can show. Then the position is that of the last
frame with a place, and the trace read alone gives this position too, whatever the message
holds, with the first line of the message that is not blank and holds no frame. So where
the message is one such line, both ways to classify the fault agree. -/
theorem classifyTrace_faultAt (source : List Char) (message : String)
    (frames : List (Option String × Option Place))
    (hsource : byteLength source < Json.maxSize)
    (hframes : ∀ name p, (name, some p) ∈ frames →
      p.line ≤ Json.maxSize ∧ ∀ n ∈ name, IsFrameName n.toList)
    (hplaced : ∃ name p, (name, some p) ∈ frames) :
    let index := LineIndex.ofChars source
    let fault := faultAt index message frames
    ∃ p, (frames.filterMap (·.2)).getLast? = some p ∧
      fault.position = some (p.line, byteColumn index p) ∧
      classifyTrace fault.trace =
        .classified ⟨String.ofList (traceMessage message.toList), p.line, byteColumn index p⟩ ∧
      (message ≠ "" → '\n' ∉ message.toList → trim message.toList = message.toList →
        Diagnostics.frames message.toList = [] →
        fault.classify = { fault with position := none }.classify) := by
  intro index fault
  obtain ⟨p, hp⟩ : ∃ p, (frames.filterMap (·.2)).getLast? = some p := by
    obtain ⟨name, p, hmem⟩ := hplaced
    have hne : frames.filterMap (·.2) ≠ [] :=
      List.ne_nil_of_mem (List.mem_filterMap.2 ⟨_, hmem, rfl⟩)
    exact ⟨_, List.getLast?_eq_some_getLast hne⟩
  obtain ⟨f, hf, hline, hcol⟩ := located_getLast? index hp
  have hplace : ∃ name, (name, some p) ∈ frames := by
    obtain ⟨⟨name, _⟩, hmem, rfl⟩ := List.mem_filterMap.1 (List.mem_of_mem_getLast? hp)
    exact ⟨name, hmem⟩
  have hbound : f.line ≤ Json.maxSize ∧ f.col ≤ Json.maxSize := by
    obtain ⟨name, hmem⟩ := hplace
    have hle := byteColumn_le index p
    have hsize : index.size = byteLength source := rfl
    exact ⟨hline ▸ (hframes name p hmem).1, by omega⟩
  have hname : ∀ g ∈ located index frames, ∀ n ∈ g.function, IsFrameName n.toList := by
    intro g hg
    obtain ⟨⟨name, place⟩, hmem, hg⟩ := List.mem_filterMap.1 hg
    obtain ⟨q, rfl, rfl⟩ := Option.map_eq_some_iff.1 hg
    exact (hframes name q hmem).2
  have htrace : classifyTrace fault.trace = .classified
      ⟨String.ofList (traceMessage message.toList), p.line, byteColumn index p⟩ := by
    rw [← hline, ← hcol]
    exact classifyTrace_foldl message _ hf hname hbound.1 hbound.2
  have hpos : fault.position = some (p.line, byteColumn index p) := by
    simp only [fault, faultAt_eq, hf, Option.map_some, hline, hcol]
  refine ⟨p, hp, hpos, htrace, fun hne hlf htrim hnone => ?_⟩
  have hmessage := traceMessage_of_line (by simpa using hne) hlf htrim hnone
  rw [hmessage, String.ofList_toList] at htrace
  simp only [Fault.classify, hpos, htrace]
  rfl

/-- A message that ends like the start of a frame does not hide the frames behind it. -/
theorem classifyTrace_faultAt_unfinished :
    let source := "let r = 1;\né + r(2)".toList
    let message := "at eval:7:\n at r (x:1:2"
    let frames := [(some "r", some (⟨2, 5⟩ : Place)), (none, some ⟨2, 3⟩)]
    (∀ name p, (name, some p) ∈ frames →
        p.line ≤ Json.maxSize ∧ ∀ n ∈ name, IsFrameName n.toList) ∧
      classifyTrace (faultAt (.ofChars source) message frames).trace =
        .classified ⟨"at eval:7:", 2, 4⟩ := by
  intro source message frames
  have hframes : ∀ name p, (name, some p) ∈ frames →
      p.line ≤ Json.maxSize ∧ ∀ n ∈ name, IsFrameName n.toList := by
    intro name p hmem
    simp only [frames, List.mem_cons, Prod.mk.injEq, Option.some.injEq, List.not_mem_nil,
      or_false] at hmem
    rcases hmem with ⟨rfl, rfl⟩ | ⟨rfl, rfl⟩
    · refine ⟨by decide, fun n hn => ?_⟩
      obtain rfl := Option.some.inj hn
      decide +kernel
    · exact ⟨by decide +kernel, nofun⟩
  obtain ⟨p, hp, -, htrace, -⟩ := classifyTrace_faultAt source message frames (by decide) hframes
    ⟨none, _, by simp [frames]; rfl⟩
  obtain rfl : (⟨2, 3⟩ : Place) = p := Option.some.inj hp
  exact ⟨hframes, htrace.trans (by decide)⟩

end LiveScene.Sandbox
