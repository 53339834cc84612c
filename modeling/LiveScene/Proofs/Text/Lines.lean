import LiveScene.Text.Lines
import Mathlib.Data.List.DropRight
import Mathlib.Data.Prod.Lex

/-!
# Lines, byte offsets and columns

`LineOf text before line after` says that `line` is a line of the text, with
`before` in front of it and `after` behind it. Its number is one more than the
line ends in `before`. Every place in a text is in a line (`exists_lineOf`),
and every number up to the count of lines belongs to one
(`exists_lineOf_number`).

The index of a text holds its lines in order, each with the byte where it
starts, and these increase (`LineOf.lines`). From this the two conversions are
computed: `LineOf.position` for bytes, `LineOf.offsetOf` for characters. They
undo each other, although one counts its columns in bytes and the other in
characters (`offsets_convert`). A line and a column that are not there lead to
a place of the text, too (`isBoundary_offsetOf`), on the nearest line
(`position_offsetOf`).
-/

namespace LiveScene.Text

/-! ## Characters and bytes -/

@[simp] theorem bytes_append (u v : List Char) : bytes (u ++ v) = bytes u ++ bytes v :=
  List.flatMap_append

@[simp] theorem bytes_cons (c : Char) (cs : List Char) :
    bytes (c :: cs) = String.utf8EncodeChar c ++ bytes cs :=
  List.flatMap_cons

@[simp] theorem length_bytes (cs : List Char) : (bytes cs).length = byteLength cs := by
  induction cs with
  | nil => rfl
  | cons c cs ih => simp [ih, byteLength]

@[simp] theorem byteLength_append (u v : List Char) :
    byteLength (u ++ v) = byteLength u + byteLength v := by
  rw [← length_bytes, bytes_append, List.length_append, length_bytes, length_bytes]

/-- An ASCII character is a byte of no other character. -/
theorem eq_of_byte_mem {a c : Char} (ha : a.toNat < 128)
    (h : a.toNat.toUInt8 ∈ String.utf8EncodeChar c) : c = a := by
  have hbyte : a.toNat.toUInt8.toNat = a.toNat := by
    simp only [Nat.toUInt8, UInt8.toNat_ofNat']
    omega
  suffices c.toNat = a.toNat from Char.toNat_inj.1 this
  simp only [String.utf8EncodeChar] at h
  split_ifs at h <;>
    simp only [List.mem_cons, List.not_mem_nil, or_false, ← UInt8.toNat_inj, hbyte,
      UInt8.toNat_ofNat'] at h <;> unfold Char.toNat at * <;> omega

theorem byteLength_newline : byteLength ['\n'] = 1 := rfl

theorem byteLength_take_le (n : Nat) (cs : List Char) : byteLength (cs.take n) ≤ byteLength cs := by
  conv_rhs => rw [← List.take_append_drop n cs, byteLength_append]
  exact Nat.le_add_right _ _

/-- More characters take up more bytes. -/
theorem byteLength_take_mono (cs : List Char) {m n : Nat} (h : m ≤ n) :
    byteLength (cs.take m) ≤ byteLength (cs.take n) := by
  rw [← Nat.min_eq_left h, ← List.take_take]
  exact byteLength_take_le m (cs.take n)

/-! ## Lines of a text -/

/-- `line` is a line of the text. It starts with the text or behind a line end, and goes on to
the next line end or to the end of the text. -/
structure LineOf (text before line after : List Char) : Prop where
  split : text = before ++ (line ++ after)
  starts : before = [] ∨ ∃ front, before = front ++ ['\n']
  ends : after = [] ∨ ∃ back, after = '\n' :: back
  whole : '\n' ∉ line

/-- Every place in a text is in a line. -/
theorem exists_lineOf (u v : List Char) :
    ∃ before w w' after, LineOf (u ++ v) before (w ++ w') after ∧ u = before ++ w ∧
      v = w' ++ after := by
  let inLine : Char → Bool := (· ≠ '\n')
  have hu : u.rdropWhile inLine ++ u.rtakeWhile inLine = u := List.rdropWhile_append_rtakeWhile
  have hv : v.takeWhile inLine ++ v.dropWhile inLine = v := List.takeWhile_append_dropWhile
  refine ⟨u.rdropWhile inLine, u.rtakeWhile inLine, v.takeWhile inLine, v.dropWhile inLine,
    ⟨?_, ?_, ?_, ?_⟩, hu.symm, hv.symm⟩
  · simp only [List.append_assoc, hv]
    rw [← List.append_assoc, hu]
  · rcases List.eq_nil_or_concat (u.rdropWhile inLine) with h | ⟨front, c, h⟩
    · exact .inl h
    · have hc := List.rdropWhile_last_not inLine u (by simp [h])
      simp only [h, List.concat_eq_append, List.getLast_append_singleton] at hc
      exact .inr ⟨front, by rw [h]; simpa [inLine] using hc⟩
  · have hc := List.head?_dropWhile_not inLine v
    cases h : v.dropWhile inLine with
    | nil => exact .inl rfl
    | cons c back =>
      rw [h] at hc
      exact .inr ⟨back, by simpa [inLine] using hc⟩
  · intro h
    rcases List.mem_append.1 h with h | h
    · simpa [inLine] using List.mem_rtakeWhile_imp h
    · simpa [inLine] using List.mem_takeWhile_imp h

/-- Every byte up to the end of a text is in a line, or on its end. -/
theorem exists_lineOf_byte {text : List Char} {o : Nat} (ho : o ≤ byteLength text) :
    ∃ before line after, LineOf text before line after ∧ byteLength before ≤ o ∧
      o ≤ byteLength before + byteLength line := by
  -- the place in front of the character that the byte belongs to
  have hcut : ∃ u v, text = u ++ v ∧ byteLength u ≤ o ∧
      (o = byteLength u ∨ ∃ c t, v = c :: t ∧ c ≠ '\n' ∧ o < byteLength u + c.utf8Size) := by
    induction text generalizing o with
    | nil => exact ⟨[], [], rfl, Nat.zero_le o, .inl (Nat.le_zero.1 ho)⟩
    | cons c cs ih =>
      rw [byteLength] at ho
      by_cases hc : c.utf8Size ≤ o
      · obtain ⟨u, v, rfl, hle, hin⟩ := ih (o := o - c.utf8Size) (by omega)
        refine ⟨c :: u, v, rfl, by rw [byteLength]; omega, ?_⟩
        rcases hin with h | ⟨d, t, rfl, hd, h⟩
        · exact .inl (by rw [byteLength]; omega)
        · exact .inr ⟨d, t, rfl, hd, by rw [byteLength]; omega⟩
      · refine ⟨[], c :: cs, rfl, Nat.zero_le o, ?_⟩
        by_cases hnl : c = '\n'
        · subst hnl
          have hsize : '\n'.utf8Size = 1 := rfl
          exact .inl (by rw [byteLength]; omega)
        · exact .inr ⟨c, cs, rfl, hnl, by rw [byteLength]; omega⟩
  obtain ⟨u, v, rfl, hle, hin⟩ := hcut
  obtain ⟨before, w, w', after, hline, rfl, rfl⟩ := exists_lineOf u v
  refine ⟨before, w ++ w', after, hline, ?_, ?_⟩
  · rw [byteLength_append] at hle
    omega
  · simp only [byteLength_append] at hle hin ⊢
    rcases hin with h | ⟨c, t, hv, hc, h⟩
    · omega
    · rcases List.append_eq_cons_iff.1 hv with ⟨rfl, hafter⟩ | ⟨rest, rfl, -⟩
      · rcases hline.ends with h0 | ⟨back, h0⟩
        · simp [h0] at hafter
        · rw [h0] at hafter
          exact absurd (List.cons.inj hafter).1.symm hc
      · rw [byteLength]
        omega

/-- A text can be cut behind any number of its line ends. -/
theorem exists_split_count {cs : List Char} {k : Nat} (hk : k ≤ cs.count '\n') :
    ∃ u v, cs = u ++ v ∧ u.count '\n' = k := by
  induction cs generalizing k with
  | nil => exact ⟨[], [], rfl, by simpa [eq_comm] using hk⟩
  | cons c cs ih =>
    match k with
    | 0 => exact ⟨[], c :: cs, rfl, rfl⟩
    | k + 1 =>
      rw [List.count_cons] at hk
      by_cases hc : c = '\n'
      · obtain ⟨u, v, rfl, hu⟩ := ih (k := k) (by simp [hc] at hk; exact hk)
        exact ⟨c :: u, v, rfl, by simp [hc, hu]⟩
      · obtain ⟨u, v, rfl, hu⟩ := ih (k := k + 1) (by simpa [hc] using hk)
        exact ⟨c :: u, v, rfl, by simp [hc, hu]⟩

/-- Lines are what stands between line ends. -/
theorem splitLines_eq_splitOn (cs : List Char) : splitLines cs = cs.splitOn '\n' := by
  induction cs with
  | nil => simp [splitLines]
  | cons c cs ih =>
    rw [List.splitOn, List.splitOnP_cons_eq_if_modifyHead, ← List.splitOn, splitLines, ih]
    by_cases hc : c = '\n'
    · simp [hc]
    · cases h : cs.splitOn '\n' with
      | nil => exact absurd h (List.splitOnP_ne_nil _ cs)
      | cons line rest => simp [hc]

/-- There is one more line than line ends. -/
theorem length_splitLines (cs : List Char) : (splitLines cs).length = cs.count '\n' + 1 := by
  induction cs with
  | nil => rfl
  | cons c cs ih =>
    rw [splitLines]
    split_ifs with hc
    · simp [ih, hc]
    · split <;> simp_all

/-- The bytes of lines, each with a line end. -/
def span : List (List Char) → Nat
  | [] => 0
  | line :: lines => byteLength line + 1 + span lines

/-- The lines with an end behind each make up the text and one more end. -/
theorem span_splitLines (cs : List Char) : span (splitLines cs) = byteLength cs + 1 := by
  induction cs with
  | nil => rfl
  | cons c cs ih =>
    have hsize : '\n'.utf8Size = 1 := rfl
    rw [splitLines]
    split_ifs with hc
    · simp only [span, byteLength, hc, hsize] at ih ⊢
      omega
    · split
      · rename_i h
        rw [h] at ih
        simp [span] at ih
      · rename_i h
        rw [h] at ih
        simp only [span, byteLength] at ih ⊢
        omega

/-- Lines behind others start where those end. -/
theorem placeLines_append (start : Nat) (xs ys : List (List Char)) :
    placeLines start (xs ++ ys) = placeLines start xs ++ placeLines (start + span xs) ys := by
  induction xs generalizing start with
  | nil => simp [placeLines, span]
  | cons x xs ih =>
    simp only [List.cons_append, placeLines, ih, span]
    congr 3
    omega

@[simp] theorem length_placeLines (start : Nat) (xs : List (List Char)) :
    (placeLines start xs).length = xs.length := by
  induction xs generalizing start with
  | nil => rfl
  | cons x xs ih => simp [placeLines, ih]

/-- Lines lie behind their first start, and a line end before what follows. -/
theorem bounds_of_mem_placeLines {start : Nat} {xs : List (List Char)} {l : Line}
    (h : l ∈ placeLines start xs) : start ≤ l.start ∧ l.start < start + span xs := by
  induction xs generalizing start with
  | nil => simp [placeLines] at h
  | cons x xs ih =>
    simp only [span] at ih ⊢
    rcases List.mem_cons.1 h with rfl | h
    · exact ⟨Nat.le_refl _, by simp only []; omega⟩
    · have := ih h
      omega

/-- An index counts one more line than line ends. -/
theorem lineCount_ofChars (cs : List Char) :
    (LineIndex.ofChars cs).lineCount = cs.count '\n' + 1 := by
  simp [LineIndex.lineCount, LineIndex.ofChars, length_splitLines]

/-- The lines of a text behind what stands in front of a line. -/
theorem exists_splitLines_append {before : List Char}
    (h : before = [] ∨ ∃ front, before = front ++ ['\n']) :
    ∃ lines, (∀ t, splitLines (before ++ t) = lines ++ splitLines t) ∧
      lines.length = before.count '\n' ∧ span lines = byteLength before := by
  rcases h with rfl | ⟨front, rfl⟩
  · exact ⟨[], fun t => rfl, rfl, rfl⟩
  · refine ⟨splitLines front, fun t => ?_, ?_, ?_⟩
    · simp only [splitLines_eq_splitOn, List.append_assoc, List.singleton_append,
        List.splitOn_append_cons_self]
    · simp [length_splitLines]
    · rw [span_splitLines, byteLength_append, byteLength_newline]

/-- A text that starts with a line is split behind it. -/
theorem exists_splitLines_cons {line after : List Char} (hline : '\n' ∉ line)
    (h : after = [] ∨ ∃ back, after = '\n' :: back) :
    ∃ lines, splitLines (line ++ after) = line :: lines := by
  rw [splitLines_eq_splitOn]
  rcases h with rfl | ⟨back, rfl⟩
  · exact ⟨[], by rw [List.append_nil, List.splitOn_eq_singleton hline]⟩
  · exact ⟨back.splitOn '\n', by
      rw [List.splitOn_append_cons_self, List.splitOn_eq_singleton hline, List.singleton_append]⟩

namespace LineOf

variable {text before line after : List Char}

/-- The index has a line behind as many others as there are line ends in front of it. Those
start before it, and the lines behind it start past its end. -/
theorem lines (h : LineOf text before line after) :
    ∃ front back, (LineIndex.ofChars text).lines = front ++ ⟨byteLength before, line⟩ :: back ∧
      front.length = before.count '\n' ∧ (∀ l ∈ front, l.start < byteLength before) ∧
      ∀ l ∈ back, byteLength before + byteLength line < l.start := by
  obtain ⟨front, hfront, hlength, hspan⟩ := exists_splitLines_append h.starts
  obtain ⟨back, hback⟩ := exists_splitLines_cons h.whole h.ends
  refine ⟨placeLines 0 front, placeLines (byteLength before + byteLength line + 1) back,
    ?_, ?_, ?_, ?_⟩
  · rw [LineIndex.ofChars, h.split, hfront, hback, placeLines_append, hspan, Nat.zero_add]
    rfl
  · rw [length_placeLines, hlength]
  · intro l hl
    have := bounds_of_mem_placeLines hl
    omega
  · intro l hl
    have := bounds_of_mem_placeLines hl
    omega

/-- A line stands in the index at the number of line ends before it. -/
theorem getElem?_lines (h : LineOf text before line after) :
    (LineIndex.ofChars text).lines[before.count '\n']? = some ⟨byteLength before, line⟩ := by
  obtain ⟨front, back, heq, hlength, -, -⟩ := h.lines
  rw [heq, ← hlength]
  simp

/-- The number of a line is one of the index. -/
theorem number_le (h : LineOf text before line after) :
    before.count '\n' + 1 ≤ (LineIndex.ofChars text).lineCount := by
  rw [lineCount_ofChars, h.split, List.count_append]
  omega

/-- A line is found under its number. -/
theorem lineAt (h : LineOf text before line after) :
    (LineIndex.ofChars text).lineAt (before.count '\n' + 1) = ⟨byteLength before, line⟩ := by
  have hmin := Nat.min_eq_left h.number_le
  rw [LineIndex.lineCount] at hmin
  rw [LineIndex.lineAt, hmin, List.getD, Nat.add_sub_cancel, h.getElem?_lines]
  rfl

/-- A text is as long as a line of it and what stands around that. -/
theorem byteLength_eq (h : LineOf text before line after) :
    (LineIndex.ofChars text).size = byteLength before + byteLength line + byteLength after := by
  rw [LineIndex.ofChars, h.split, byteLength_append, byteLength_append, Nat.add_assoc]

/-- The starts of the lines are parted by a byte of a line: those up to the line itself are not
behind the byte, all others are. -/
theorem start_le_iff (h : LineOf text before line after) {o : Nat} (ho : byteLength before ≤ o)
    (ho' : o ≤ byteLength before + byteLength line) {i : Nat} {l : Line}
    (hl : (LineIndex.ofChars text).lines[i]? = some l) :
    l.start ≤ o ↔ i < before.count '\n' + 1 := by
  obtain ⟨front, back, heq, hlength, hfront, hback⟩ := h.lines
  rw [heq] at hl
  rcases Nat.lt_trichotomy i front.length with hi | rfl | hi
  · rw [List.getElem?_append_left hi] at hl
    have := hfront l (List.mem_of_getElem? hl)
    omega
  · simp only [List.getElem?_append_right (Nat.le_refl _), Nat.sub_self, List.getElem?_cons_zero,
      Option.some.injEq] at hl
    subst hl
    simp only [ho, hlength, true_iff]
    omega
  · have hcons : (front ++ (⟨byteLength before, line⟩ : Line) :: back)[i]? =
        back[i - front.length - 1]? := by
      rw [List.getElem?_append_right (Nat.le_of_lt hi), List.getElem?_cons]
      simp [Nat.sub_ne_zero_of_lt hi]
    rw [hcons] at hl
    have := hback l (List.mem_of_getElem? hl)
    omega

/-- A byte from the start of a line to its end is in this line. -/
theorem position (h : LineOf text before line after) {o : Nat} (ho : byteLength before ≤ o)
    (ho' : o ≤ byteLength before + byteLength line) :
    (LineIndex.ofChars text).position o = (before.count '\n' + 1, o - byteLength before + 1) := by
  obtain ⟨front, back, heq, hlength, hfront, hback⟩ := h.lines
  have hmin : min o (LineIndex.ofChars text).size = o := by
    have := h.byteLength_eq
    omega
  have hin : ∀ l ∈ front, decide (l.start ≤ o) = true := fun l hl => by
    have := hfront l hl
    simp only [decide_eq_true_eq]
    omega
  have hout : back.takeWhile (·.start ≤ o) = [] := by
    cases back with
    | nil => rfl
    | cons l rest =>
      have := hback l (List.mem_cons_self ..)
      rw [List.takeWhile_cons_of_neg]
      simp only [decide_eq_true_eq]
      omega
  have hnumber : ((LineIndex.ofChars text).lines.takeWhile (·.start ≤ o)).length =
      before.count '\n' + 1 := by
    rw [heq, List.takeWhile_append_of_pos hin, List.takeWhile_cons_of_pos (by simpa using ho), hout]
    simp [hlength]
  simp only [LineIndex.position, hmin, hnumber, h.lineAt]

/-- Columns count characters from the start of the line and stop at its end. -/
theorem offsetOf (h : LineOf text before line after) (col : Nat) :
    (LineIndex.ofChars text).offsetOf (before.count '\n' + 1) col =
      byteLength before + byteLength (line.take (min (max col 1 - 1) line.length)) := by
  have htake : line.take (min (max col 1 - 1) line.length) = line.take (col - 1) := by
    rw [← List.take_eq_take_min]
    congr 1
    omega
  rw [LineIndex.offsetOf, h.lineAt, htake]

end LineOf

/-- Every number up to the count of lines belongs to a line. -/
theorem exists_lineOf_number {text : List Char} {n : Nat} (hn : 1 ≤ n)
    (hn' : n ≤ (LineIndex.ofChars text).lineCount) :
    ∃ before line after, LineOf text before line after ∧ before.count '\n' + 1 = n := by
  rw [lineCount_ofChars] at hn'
  obtain ⟨u, v, rfl, hu⟩ := exists_split_count (show n - 1 ≤ text.count '\n' by omega)
  obtain ⟨before, w, w', after, h, rfl, rfl⟩ := exists_lineOf u v
  have hw : w.count '\n' = 0 := List.count_eq_zero.2 fun hw => h.whole (by simp [hw])
  rw [List.count_append, hw] at hu
  exact ⟨before, w ++ w', after, h, by omega⟩

/-- A number beyond the lines finds the nearest one. -/
theorem lineAt_clamp (index : LineIndex) (hindex : 1 ≤ index.lineCount) (n : Nat) :
    index.lineAt (max 1 (min n index.lineCount)) = index.lineAt n := by
  have : min (max 1 (min n index.lineCount)) index.lines.length - 1 =
      min n index.lines.length - 1 := by
    simp only [LineIndex.lineCount] at hindex ⊢
    omega
  rw [LineIndex.lineAt, LineIndex.lineAt, this]

/-- A later place is at no smaller offset. -/
theorem offsetOf_mono {text : List Char} {n n' col col' : Nat} (hn : 1 ≤ n)
    (hn' : n' ≤ (LineIndex.ofChars text).lineCount) (h : n < n' ∨ n = n' ∧ col ≤ col') :
    (LineIndex.ofChars text).offsetOf n col ≤ (LineIndex.ofChars text).offsetOf n' col' := by
  rcases h with h | ⟨rfl, h⟩
  · obtain ⟨before, line, after, hline, rfl⟩ :=
      exists_lineOf_number hn (Nat.le_trans (Nat.le_of_lt h) hn')
    obtain ⟨before', line', after', hline', rfl⟩ :=
      exists_lineOf_number (Nat.le_trans hn (Nat.le_of_lt h)) hn'
    have hend : byteLength before + byteLength line < byteLength before' := by
      have := hline.start_le_iff (Nat.le_add_right _ _) (Nat.le_refl _) hline'.getElem?_lines
      simp only [] at this
      omega
    have hin := byteLength_take_le (min (max col 1 - 1) line.length) line
    rw [hline.offsetOf, hline'.offsetOf]
    omega
  · exact Nat.add_le_add_left (byteLength_take_mono _ (by omega)) _

/-- A byte offset between two characters of a text, or at one of its ends. -/
def IsBoundary (text : List Char) (o : Nat) : Prop := ∃ u, u <+: text ∧ byteLength u = o

/-- The offset of a column is a boundary in the line, and its position is in the line again. -/
theorem LineOf.converts {text before line after : List Char} (h : LineOf text before line after)
    (col : Nat) :
    let index := LineIndex.ofChars text
    let head := line.take (min (max col 1 - 1) line.length)
    index.offsetOf (before.count '\n' + 1) col = byteLength before + byteLength head ∧
      IsBoundary text (index.offsetOf (before.count '\n' + 1) col) ∧
      index.offsetOf (before.count '\n' + 1) col ≤ byteLength before + byteLength line ∧
      index.position (index.offsetOf (before.count '\n' + 1) col) =
        (before.count '\n' + 1, byteLength head + 1) := by
  intro index head
  have hle : byteLength head ≤ byteLength line := byteLength_take_le _ line
  rw [show index.offsetOf _ col = byteLength before + byteLength head from h.offsetOf col]
  refine ⟨rfl, ⟨before ++ head, ?_, byteLength_append before head⟩, Nat.add_le_add_left hle _, ?_⟩
  · rw [h.split, ← List.append_assoc]
    exact ((List.prefix_append_right_inj before).2 (List.take_prefix _ line)).trans
      (List.prefix_append _ _)
  · rw [h.position (Nat.le_add_right _ _) (Nat.add_le_add_left hle _), Nat.add_sub_cancel_left]

/-- From a boundary, its line and the characters in front of it in the line lead back to it. -/
theorem IsBoundary.converts {text : List Char} {o : Nat} (h : IsBoundary text o) :
    let index := LineIndex.ofChars text
    ∃ before line after head, LineOf text before line after ∧ head <+: line ∧
      o = byteLength before + byteLength head ∧
      (index.position o).1 = before.count '\n' + 1 ∧
      index.offsetOf (index.position o).1 (1 + head.length) = o := by
  obtain ⟨u, ⟨v, rfl⟩, rfl⟩ := h
  obtain ⟨before, w, w', after, hline, rfl, rfl⟩ := exists_lineOf u v
  have hnumber : ((LineIndex.ofChars (before ++ w ++ (w' ++ after))).position
      (byteLength (before ++ w))).1 = before.count '\n' + 1 := by
    rw [hline.position] <;> simp only [byteLength_append] <;> omega
  have hcolumn : min (max (1 + w.length) 1 - 1) (w ++ w').length = w.length := by
    rw [List.length_append]
    omega
  refine ⟨before, w ++ w', after, w, hline, List.prefix_append _ _, byteLength_append _ _,
    hnumber, ?_⟩
  rw [hnumber, hline.offsetOf, hcolumn, List.take_left, byteLength_append]

/-- Every text has a first line. -/
theorem one_le_lineCount (text : List Char) : 1 ≤ (LineIndex.ofChars text).lineCount := by
  rw [lineCount_ofChars]
  exact Nat.le_add_left 1 _

/-- A number without a line is taken for that of the nearest one. -/
theorem exists_lineOf_clamp (text : List Char) (n : Nat) :
    ∃ before line after, LineOf text before line after ∧
      before.count '\n' + 1 = max 1 (min n (LineIndex.ofChars text).lineCount) ∧
      ∀ col, (LineIndex.ofChars text).offsetOf n col =
        (LineIndex.ofChars text).offsetOf (before.count '\n' + 1) col := by
  have hcount := one_le_lineCount text
  have hle : max 1 (min n (LineIndex.ofChars text).lineCount) ≤
      (LineIndex.ofChars text).lineCount := by omega
  obtain ⟨before, line, after, h, hnumber⟩ := exists_lineOf_number (Nat.le_max_left 1 _) hle
  refine ⟨before, line, after, h, hnumber, fun col => ?_⟩
  rw [LineIndex.offsetOf, LineIndex.offsetOf, hnumber, lineAt_clamp _ hcount]

/-- Every line and column lead to a boundary. -/
theorem isBoundary_offsetOf (text : List Char) (n col : Nat) :
    IsBoundary text ((LineIndex.ofChars text).offsetOf n col) := by
  obtain ⟨before, line, after, h, -, hclamp⟩ := exists_lineOf_clamp text n
  rw [hclamp]
  exact (h.converts col).2.1

/-- A boundary lies in its text. -/
theorem IsBoundary.le {text : List Char} {o : Nat} (h : IsBoundary text o) :
    o ≤ byteLength text := by
  obtain ⟨u, ⟨v, rfl⟩, rfl⟩ := h
  rw [byteLength_append]
  exact Nat.le_add_right _ _

/-- There and back: a column in characters comes to one in bytes, and a line that is not there
to the nearest one. -/
theorem position_offsetOf (text : List Char) (n col : Nat) :
    ∃ before line after, LineOf text before line after ∧
      before.count '\n' + 1 = max 1 (min n (LineIndex.ofChars text).lineCount) ∧
      (LineIndex.ofChars text).position ((LineIndex.ofChars text).offsetOf n col) =
        (before.count '\n' + 1, byteLength (line.take (col - 1)) + 1) := by
  obtain ⟨before, line, after, h, hnumber, hclamp⟩ := exists_lineOf_clamp text n
  have hhead : line.take (min (max col 1 - 1) line.length) = line.take (col - 1) := by
    rw [← List.take_eq_take_min]
    congr 1
    omega
  refine ⟨before, line, after, h, hnumber, ?_⟩
  rw [hclamp, (h.converts col).2.2.2, hhead]

/-- The conversions undo each other. A line and a column lead to the offset behind as many
characters of the line as there are in front of the column, and its position has the same line
and the column in bytes; a line that is not there is taken for the nearest one. Back from a
boundary, its line and the characters in front of it in the line lead to the boundary. Later
places have no smaller offsets. -/
theorem offsets_convert (text : String) :
    let cs := text.toList
    let index := LineIndex.ofString text
    (∀ n, 1 ≤ n → n ≤ index.lineCount →
      ∃ before line after, LineOf cs before line after ∧ before.count '\n' + 1 = n ∧
        ∀ col, let head := line.take (min (max col 1 - 1) line.length)
          index.offsetOf n col = byteLength before + byteLength head ∧
          IsBoundary cs (index.offsetOf n col) ∧
          index.offsetOf n col ≤ byteLength before + byteLength line ∧
          index.position (index.offsetOf n col) = (n, byteLength head + 1)) ∧
    (∀ n col, index.offsetOf n col = index.offsetOf (max 1 (min n index.lineCount)) col) ∧
    (∀ o, IsBoundary cs o →
      ∃ before line after head, LineOf cs before line after ∧ head <+: line ∧
        o = byteLength before + byteLength head ∧
        (index.position o).1 = before.count '\n' + 1 ∧
        index.offsetOf (index.position o).1 (1 + head.length) = o) ∧
    ∀ n n' col col', 1 ≤ n → n' ≤ index.lineCount → toLex (n, col) ≤ toLex (n', col') →
      index.offsetOf n col ≤ index.offsetOf n' col' := by
  intro cs index
  refine ⟨fun n hn hn' => ?_, fun n col => ?_, fun o ho => ho.converts,
    fun n n' col col' hn hn' h => offsetOf_mono hn hn' (Prod.Lex.toLex_le_toLex.1 h)⟩
  · obtain ⟨before, line, after, hline, rfl⟩ := exists_lineOf_number hn hn'
    exact ⟨before, line, after, hline, rfl, hline.converts⟩
  · have hcount : 1 ≤ index.lineCount := by
      rw [show index.lineCount = _ from lineCount_ofChars cs]
      omega
    rw [LineIndex.offsetOf, LineIndex.offsetOf, lineAt_clamp index hcount]

/-- A column counts the three bytes of one character as one, a position counts them all. -/
example : (LineIndex.ofString "a\n√x").offsetOf 2 2 = 5 ∧
    (LineIndex.ofString "a\n√x").position 5 = (2, 4) := by decide

end LiveScene.Text
