import LiveScene.Diagnostics.Diagnostic
import LiveScene.Proofs.Text.Lines
import Mathlib.Data.List.Forall2

/-!
# Where diagnostics are shown

A byte offset is placed by the bytes in front of it: its line counts the line
ends among them, its column the bytes behind the last one (`position_eq`).
Offsets inside of a character have a place, those past the end have that of
the end. The line is found among starts that the offset parts in two
(`searched`), so there always is one.

The records of diagnostics are their innermost texts at these places, and
nothing else is a record of them (`classifyAll_placed`).
-/

namespace LiveScene.Text

/-- The byte that ends a line. -/
def lineEnd : UInt8 := '\n'.toNat.toUInt8

theorem lineEnd_mem_bytes {cs : List Char} : lineEnd ∈ bytes cs ↔ '\n' ∈ cs := by
  constructor
  · intro h
    obtain ⟨c, hc, hb⟩ := List.mem_flatMap.1 h
    exact eq_of_byte_mem (a := '\n') (by decide) hb ▸ hc
  · intro h
    exact List.mem_flatMap.2 ⟨'\n', h, by decide⟩

/-- Line ends are counted in bytes as in characters. -/
theorem count_bytes (cs : List Char) : (bytes cs).count lineEnd = cs.count '\n' := by
  induction cs with
  | nil => rfl
  | cons c cs ih =>
    rw [bytes_cons, List.count_append, ih, List.count_cons]
    by_cases hc : c = '\n'
    · subst hc
      rw [show (String.utf8EncodeChar '\n').count lineEnd = 1 by decide]
      simp [Nat.add_comm]
    · have hmem : lineEnd ∉ String.utf8EncodeChar c := fun h =>
        hc (eq_of_byte_mem (a := '\n') (by decide) h)
      simp [List.count_eq_zero.2 hmem, hc]

variable {text before line after : List Char}

namespace LineOf

/-- The bytes in front of one in a line: those in front of the line, and some of the line. -/
theorem take_bytes (h : LineOf text before line after) {o : Nat} (ho : byteLength before ≤ o)
    (ho' : o ≤ byteLength before + byteLength line) :
    (bytes text).take o = bytes before ++ (bytes line).take (o - byteLength before) := by
  rw [h.split, bytes_append, List.take_append, length_bytes,
    List.take_of_length_le (by rwa [length_bytes]), bytes_append, List.take_append_of_le_length]
  rw [length_bytes]
  omega

/-- The bytes of a line in front of one in it hold no line end, those in front of the line end
with one. -/
theorem rtakeWhile_bytes (h : LineOf text before line after) {o : Nat} (ho : byteLength before ≤ o)
    (ho' : o ≤ byteLength before + byteLength line) :
    ((bytes text).take o).rtakeWhile (· ≠ lineEnd) = (bytes line).take (o - byteLength before) := by
  have hline : ∀ b ∈ (bytes line).take (o - byteLength before), b ≠ lineEnd := by
    rintro b hb rfl
    exact h.whole (lineEnd_mem_bytes.1 (List.mem_of_mem_take hb))
  rw [h.take_bytes ho ho', List.rtakeWhile, List.reverse_append, List.takeWhile_append_of_pos]
  · have hstop : (bytes before).reverse.takeWhile (· ≠ lineEnd) = [] := by
      rcases h.starts with h0 | ⟨front, h0⟩
      · simp [h0, bytes]
      · rw [h0, bytes_append, show bytes ['\n'] = [lineEnd] by decide, List.reverse_append]
        simp
    rw [hstop, List.append_nil, List.reverse_reverse]
  · simpa using hline

end LineOf

/-- The place of a byte offset: its line counts the line ends in front of it, its column the bytes
behind the last of them. -/
theorem position_eq (text : List Char) (o : Nat) :
    (LineIndex.ofChars text).position o =
      (((bytes text).take o).count lineEnd + 1,
        (((bytes text).take o).rtakeWhile (· ≠ lineEnd)).length + 1) := by
  have hclamp : (LineIndex.ofChars text).position o =
      (LineIndex.ofChars text).position (min o (byteLength text)) := by
    rw [LineIndex.position, LineIndex.position, LineIndex.ofChars, Nat.min_assoc, Nat.min_self]
  have htake : (bytes text).take o = (bytes text).take (min o (byteLength text)) := by
    rw [List.take_eq_take_min, length_bytes]
  rw [hclamp, htake]
  obtain ⟨before, line, after, h, ho, ho'⟩ :=
    exists_lineOf_byte (Nat.min_le_right o (byteLength text))
  generalize min o (byteLength text) = o at ho ho'
  have hline : ((bytes line).take (o - byteLength before)).count lineEnd = 0 :=
    List.count_eq_zero.2 fun hb => h.whole (lineEnd_mem_bytes.1 (List.mem_of_mem_take hb))
  have hlength : min (o - byteLength before) (byteLength line) = o - byteLength before := by omega
  rw [h.position ho ho', h.rtakeWhile_bytes ho ho', h.take_bytes ho ho', List.count_append,
    count_bytes, hline, List.length_take, length_bytes, hlength, Nat.add_zero]

/-- The search for the line of an offset succeeds: the starts up to the offset are those of the
first lines, there is a last one of them, and it does not lie behind the offset. -/
structure Searched (index : LineIndex) (offset : Nat) : Prop where
  parted : ∀ i l, index.lines[i]? = some l →
    (l.start ≤ min offset index.size ↔ i < (index.position offset).1)
  pos : 1 ≤ (index.position offset).1
  le : (index.position offset).1 ≤ index.lineCount
  found : index.lines[(index.position offset).1 - 1]? =
    some (index.lineAt (index.position offset).1)
  start_le : (index.lineAt (index.position offset).1).start ≤ min offset index.size

/-- The search for the line of an offset succeeds in every text. -/
theorem searched (text : List Char) (offset : Nat) : Searched (.ofChars text) offset := by
  obtain ⟨before, line, after, h, ho, ho'⟩ :=
    exists_lineOf_byte (Nat.min_le_right offset (byteLength text))
  have hnumber : ((LineIndex.ofChars text).position offset).1 = before.count '\n' + 1 := by
    have := congrArg Prod.fst (h.position ho ho')
    rwa [LineIndex.position, LineIndex.ofChars, Nat.min_assoc, Nat.min_self] at this
  refine ⟨fun i l hl => ?_, ?_, ?_, ?_, ?_⟩
  · rw [hnumber]
    exact h.start_le_iff ho ho' hl
  · rw [hnumber]
    exact Nat.le_add_left 1 _
  · rw [hnumber]
    exact h.number_le
  · rw [hnumber, h.lineAt, Nat.add_sub_cancel]
    exact h.getElem?_lines
  · rw [hnumber, h.lineAt]
    exact ho

end LiveScene.Text

namespace LiveScene.Diagnostics

open Text

/-- A diagnostic inside of others, which have the ranges given, the outermost first. -/
def Diagnostic.nest (ranges : List (Nat × Nat)) (d : Diagnostic) : Diagnostic :=
  ranges.foldr (fun (offset, length) inner => .nested offset length inner) d

/-- Ranges around a finding do not change its innermost message. -/
theorem Diagnostic.innermostMessage_nest (ranges : List (Nat × Nat)) (d : Diagnostic) :
    (nest ranges d).innermostMessage = d.innermostMessage := by
  induction ranges with
  | nil => rfl
  | cons r ranges ih => exact ih

/-- Every diagnostic is a text inside of as many others as it is deep. -/
theorem Diagnostic.exists_nest : ∀ d : Diagnostic, ∃ ranges offset length,
    d = nest ranges (.text offset length d.innermostMessage) ∧ ranges.length = d.nestingDepth
  | .text offset length message => ⟨[], offset, length, rfl, rfl⟩
  | .nested offset length inner => by
    obtain ⟨ranges, o, n, h, hdepth⟩ := exists_nest inner
    refine ⟨(offset, length) :: ranges, o, n, ?_, by simp [nestingDepth, hdepth]⟩
    conv_lhs => rw [h]
    rfl

/-- A record of a diagnostic: the text at the end of its chain, at the place of the outermost one.
The line is one more than the line ends in front of the offset, the column one more than the
bytes since the last of them. -/
structure Placed (source : String) (d : Diagnostic) (r : ErrorRecord) : Prop where
  message : ∃ ranges offset length, d = .nest ranges (.text offset length r.message)
  line : r.line = ((bytes source.toList).take d.offset).count lineEnd + 1
  col : r.col = (((bytes source.toList).take d.offset).rtakeWhile (· ≠ lineEnd)).length + 1

/-- A record is placed for a finding if and only if it is what the finding is classified as. -/
theorem placed_iff (source : String) (d : Diagnostic) (r : ErrorRecord) :
    Placed source d r ↔ classify source d = r := by
  have hrecord : classify source d = ⟨d.innermostMessage,
      ((bytes source.toList).take d.offset).count lineEnd + 1,
      (((bytes source.toList).take d.offset).rtakeWhile (· ≠ lineEnd)).length + 1⟩ := by
    rw [classify, Diagnostic.record, LineIndex.ofString, position_eq]
  rw [hrecord]
  constructor
  · rintro ⟨⟨ranges, offset, length, hd⟩, hline, hcol⟩
    rw [← hline, ← hcol, hd, Diagnostic.innermostMessage_nest]
    rfl
  · rintro rfl
    obtain ⟨ranges, offset, length, hd, -⟩ := d.exists_nest
    exact ⟨⟨ranges, offset, length, hd⟩, rfl, rfl⟩

/-- The records of diagnostics are one for each, in their order, with its innermost text and the
place of its offset. The search for the place of each offset succeeds. -/
theorem classifyAll_placed (source : String) (ds : List Diagnostic) :
    (∀ rs, List.Forall₂ (Placed source) ds rs ↔ classifyAll source ds = rs) ∧
      ∀ offset, Searched (.ofString source) offset := by
  refine ⟨fun rs => ?_, searched source.toList⟩
  have hmap : List.Forall₂ (Placed source) ds rs ↔
      List.Forall₂ (fun d r => classify source d = r) ds rs :=
    ⟨List.Forall₂.imp fun d r => (placed_iff source d r).1,
      List.Forall₂.imp fun d r => (placed_iff source d r).2⟩
  rw [hmap, ← List.forall₂_map_left_iff, List.forall₂_eq_eq_eq]
  rfl

/-- An offset inside of a character, and one past the end. -/
example : classifyAll "√\nx" [.nested 1 1 (.text 9 9 "in"), .text 70 0 "end"] =
    [⟨"in", 1, 2⟩, ⟨"end", 2, 2⟩] := by decide

end LiveScene.Diagnostics
