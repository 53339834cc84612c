import LiveScene.Proofs.Compiler.Acceptance
import LiveScene.Proofs.Text.Lines
import LiveScene.Sandbox.Error

/-!
# How a refusal is shown

The compiler and the sandbox both show why a source does not parse, each in its
own way. The compiler makes a byte offset of the place and keeps it in a
diagnostic, which is placed again when it is shown (`classifyAll_grammar`). The
sandbox keeps the line and counts the column in bytes (`result_evaluate`).

The way there and back keeps every line that is there, and takes others for the
nearest one (`position_offsetOf`). So the same error comes to the same record
exactly if it is on a line of the source (`refused_alike`).
-/

namespace LiveScene.Compiler

open Text Diagnostics Sandbox Script

/-- Why the compiler does not accept a source, if it does not parse. -/
def parseError? (source : String) : Option ParseError :=
  match parse parseLimits source.toList with
  | .error e => some e
  | .ok _ => none

/-- Whether a place is on a line of a source. -/
def OnLine (source : String) (p : Place) : Prop :=
  1 ≤ p.line ∧ p.line ≤ (LineIndex.ofString source).lineCount

/-- The record of a parse error: its message and its line, and a column that counts the bytes of
the characters in front of it in this line. -/
structure Shown (source : String) (e : ParseError) (r : ErrorRecord) : Prop where
  message : r.message = e.fault.message
  line : r.line = e.place.line
  col : ∃ before line after, LineOf source.toList before line after ∧
    before.count '\n' + 1 = e.place.line ∧ r.col = byteLength (line.take (e.place.col - 1)) + 1

/-- Where the offset of a place in characters is shown, in bytes. -/
def shownPlace (source : String) (p : Place) : Nat × Nat :=
  let index := LineIndex.ofString source
  index.position (index.offsetOf p.line p.col)

variable {source : String} {e : ParseError}

/-- The compiler shows a parse error where the offset of its place is. -/
theorem classifyAll_grammar (o : Options) (ambient : Ambient) (h : parseError? source = some e) :
    classifyAll source (compile o ambient source).grammar =
      [⟨e.fault.message, (shownPlace source e.place).1, (shownPlace source e.place).2⟩] := by
  unfold parseError? at h
  split at h
  · rename_i e' hparse
    obtain rfl := Option.some.inj h
    simp only [compile, hparse]
    rfl
  · cases h

/-- The sandbox shows it on the line of its place. -/
theorem result_evaluate {c : Config} (h : refusal? c source = some e) (cancelled : Bool) :
    (evaluate c cancelled source).outcome.map Outcome.result =
      some (.ok (.error ⟨e.fault.message, e.place.line, (shownPlace source e.place).2⟩)) := by
  rw [evaluate_of_refusal? h]
  rfl

/-- An error that both the compiler and the sandbox find in a source is shown by both, with one
message and one column. Their records are the same exactly if the error is on a line of the
source, and then this line and the bytes in front of the error in it are their place. -/
theorem refused_alike (o : Options) (ambient : Ambient) (c : Config) (cancelled : Bool)
    (hcompiler : parseError? source = some e) (hsandbox : refusal? c source = some e) :
    ∃ r r', classifyAll source (compile o ambient source).grammar = [r] ∧
      (evaluate c cancelled source).outcome.map Outcome.result = some (.ok (.error r')) ∧
      r.message = r'.message ∧ r.col = r'.col ∧ (r = r' ↔ OnLine source e.place) ∧
      (OnLine source e.place → Shown source e r) := by
  obtain ⟨before, line, after, h, hnumber, hplace⟩ :=
    position_offsetOf source.toList e.place.line e.place.col
  have hshown : shownPlace source e.place =
      (before.count '\n' + 1, byteLength (line.take (e.place.col - 1)) + 1) := hplace
  have hline : before.count '\n' + 1 = e.place.line ↔ OnLine source e.place := by
    have hcount := one_le_lineCount source.toList
    rw [OnLine, LineIndex.ofString, hnumber]
    omega
  refine ⟨_, _, classifyAll_grammar o ambient hcompiler, result_evaluate hsandbox cancelled,
    rfl, rfl, ?_, fun hon => ⟨rfl, ?_, before, line, after, h, hline.2 hon, ?_⟩⟩
  · rw [ErrorRecord.mk.injEq, hshown, ← hline]
    simp
  · rw [hshown]
    exact hline.2 hon
  · rw [hshown]

/-- A second line with two strings, each of one character that takes two bytes. -/
def unparted : String := "1;\r\n\"é\" \"é\""

/-- A statement without its semicolon is refused by both with one record, in the second line. -/
theorem refused_alike_unparted :
    let e : ParseError := ⟨.missing ";" "to terminate this statement", ⟨2, 5⟩⟩
    parseError? unparted = some e ∧ refusal? .default unparted = some e ∧
      OnLine unparted e.place ∧
      ∃ r, classifyAll unparted (compile .default .implicit unparted).grammar = [r] ∧
        (evaluate .default false unparted).outcome.map Outcome.result = some (.ok (.error r)) ∧
        Shown unparted e r := by
  intro e
  have hcompiler : parseError? unparted = some e := by decide +kernel
  have hsandbox : refusal? .default unparted = some e := by decide +kernel
  have hon : OnLine unparted e.place := ⟨by decide, by decide +kernel⟩
  obtain ⟨r, r', hr, hr', -, -, hiff, hshown⟩ :=
    refused_alike .default .implicit .default false hcompiler hsandbox
  obtain rfl := hiff.2 hon
  exact ⟨hcompiler, hsandbox, hon, r, hr, hr', hshown hon⟩

end LiveScene.Compiler
