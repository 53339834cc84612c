import LiveScene.Diagnostics.Trace
import LiveScene.Proofs.Text.Search
import Mathlib.Data.List.TakeWhile

/-!
# Reading back written frames

A `WrittenFrame` is a frame as a trace writes it: a file, a line and a column,
bare or in parentheses behind a name. A reader that comes to its `at` finds
its digits (`Frame.match?_place`), and finds them also behind any other text:
no frame that starts before the line goes on into it (`Frame.endsIn_line`).
So the frame on the last line of a text is the last one that is read
(`frames_getLast?`).

The message of a trace is the other half. Lines that hold a frame are passed
over, so the lines of a trace never become the message of the text in front of
them (`traceMessage_append_lines`).
-/

namespace LiveScene.Diagnostics

open Text

/-! ## Character classes -/

/-- A name of a trace holds no white space. -/
theorem isSpace_of_isNameChar {c : Char} (h : isNameChar c = true) : isSpace c = false := by
  simp [isNameChar] at h
  simp [h.1]

theorem ne_paren_of_isNameChar {c : Char} (h : isNameChar c = true) : c ≠ '(' := by
  simp [isNameChar] at h
  exact h.1.2

/-- ASCII digits are decimal digits and belong to names. -/
theorem isDigit_of_ascii {c : Char} (h : c.isDigit = true) :
    isDigit c = true ∧ isNameChar c = true := by
  have hc : 48 ≤ c.toNat ∧ c.toNat ≤ 57 := by
    simp only [Char.isDigit, Bool.and_eq_true, decide_eq_true_eq, ge_iff_le,
      UInt32.le_iff_toNat_le] at h
    exact h
  have hne : ∀ d : Char, d.toNat < 48 → c ≠ d := by
    rintro d hd rfl
    omega
  refine ⟨by rw [isDigit, if_pos (by omega), h], ?_⟩
  have h1 := hne '(' (by decide)
  have h2 := hne ')' (by decide)
  simp [isNameChar, isSpace, h1, h2]
  omega

/-- The line of a trace that shows a place. -/
def frameLine (place : List Char) : List Char := [' ', ' ', ' ', ' ', 'a', 't', ' '] ++ place

/-- The digits of a number as they are written. -/
def IsNumeral (ds : List Char) : Prop := ds ≠ [] ∧ ∀ c ∈ ds, c.isDigit = true

/-- A name as a trace can show it: no white space and no parenthesis. -/
def IsFrameName (name : List Char) : Prop := name ≠ [] ∧ ∀ c ∈ name, isNameChar c = true

instance (name : List Char) : Decidable (IsFrameName name) :=
  decidable_of_iff (name ≠ [] ∧ name.all isNameChar = true) (by simp [IsFrameName])

/-- A frame as a trace writes it. -/
structure WrittenFrame where
  name : Option (List Char)
  file : List Char
  line : List Char
  col : List Char
  isFrameName_name : ∀ n ∈ name, IsFrameName n
  isFrameName_file : IsFrameName file
  colon_notMem : ':' ∉ file
  isNumeral_line : IsNumeral line
  isNumeral_col : IsNumeral col

/-- What stands behind the `at` of a frame. -/
def WrittenFrame.place (f : WrittenFrame) : List Char :=
  let bare := f.file ++ ':' :: f.line ++ ':' :: f.col
  match f.name with
  | none => bare
  | some name => name ++ ' ' :: '(' :: (bare ++ [')'])

/-- The frame that a reader makes of it. -/
def WrittenFrame.frame (f : WrittenFrame) : Frame :=
  ⟨f.line, f.col, ('a' :: 't' :: ' ' :: f.place).length⟩

/-! ## Frames in front of a line -/

namespace Frame

variable {before : Option Char} {f : Frame} {d : Char} {w : List Char}

/-- A place that is read in front of a line end does not go beyond it. -/
theorem place?_within {seen : Nat} {first : Bool} {y v : List Char}
    (h : place? seen first (y ++ '\n' :: v) = some f) : f.length ≤ seen + y.length := by
  induction y generalizing seen first with
  | nil => simp [place?, isNameChar, isSpace] at h
  | cons c y ih =>
    rw [List.cons_append, place?] at h
    split at h
    · rename_i hp
      simp only [takeWhile_append_cons (p := isDigit) (c := '\n') rfl,
        dropWhile_append_cons (p := isDigit) (c := '\n') rfl] at hp h
      have hline := length_takeWhile_add_dropWhile isDigit y
      cases hr : y.dropWhile isDigit with
      | nil => simp [hr] at hp
      | cons b z =>
        simp only [hr, List.cons_append, List.tail_cons,
          takeWhile_append_cons (p := isDigit) (c := '\n') rfl,
          dropWhile_append_cons (p := isDigit) (c := '\n') rfl, Option.some.injEq] at h
        have hcol := length_takeWhile_add_dropWhile isDigit z
        rw [← h]
        rw [hr] at hline
        simp only [List.length_cons] at hline ⊢
        cases hz : z.dropWhile isDigit with
        | nil =>
          simp [hz] at hcol ⊢
          omega
        | cons e z' => by_cases he : e = ')' <;> simp [hz, he] at hcol ⊢ <;> omega
    · split at h
      · have := ih h
        simp only [List.length_cons]
        omega
      · cases h

/-- The word `at` of a line is no file and no name. -/
theorem afterWord?_at (hd : isNameChar d = true) (seen : Nat) :
    afterWord? seen ('a' :: 't' :: ' ' :: d :: w) = none := by
  have hdrop : (' ' :: d :: w).dropWhile isSpace = d :: w := by
    rw [List.dropWhile_cons_of_pos (by rfl),
      List.dropWhile_cons_of_neg (by simp [isSpace_of_isNameChar hd])]
  have hname : ('a' :: 't' :: ' ' :: d :: w).dropWhile isNameChar = ' ' :: d :: w := rfl
  have hplace : place? seen true ('a' :: 't' :: ' ' :: d :: w) = none := by
    simp [place?, isNameChar, isSpace]
  simp only [afterWord?, hname, hdrop]
  split
  · rename_i inner he
    exact (ne_paren_of_isNameChar hd (List.cons.inj he).1).elim
  · rw [hplace]
    rfl

/-- From the end of a line the white space leads to the `at` of the next. -/
theorem dropWhile_frameLine (place : List Char) :
    ('\n' :: frameLine place).dropWhile isSpace = 'a' :: 't' :: ' ' :: place := rfl

/-- What is read behind an `at` ends in front of a line with a frame. -/
theorem afterWord?_within {seen : Nat} {y : List Char}
    (h : afterWord? seen (y ++ '\n' :: frameLine w) = some f) : f.length ≤ seen + y.length := by
  rw [afterWord?] at h
  simp only [takeWhile_append_cons (p := isNameChar) (c := '\n') rfl,
    dropWhile_append_cons (p := isNameChar) (c := '\n') rfl, Option.or_eq_some_iff] at h
  rcases h with h | ⟨-, h⟩
  · have hname := length_takeWhile_add_dropWhile isNameChar y
    generalize y.dropWhile isNameChar = r at h hname
    have hgap := length_takeWhile_add_dropWhile isSpace r
    by_cases hr : r.dropWhile isSpace = []
    · rw [List.dropWhile_append, if_pos (by simp [hr]), dropWhile_frameLine] at h
      cases h
    · obtain ⟨htake, hdrop⟩ := takeWhile_append_of_dropWhile hr ('\n' :: frameLine w)
      rw [htake, hdrop] at h
      cases hi : r.dropWhile isSpace with
      | nil => exact (hr hi).elim
      | cons e inner =>
        rw [hi] at h hgap
        split at h
        · rename_i inner' he
          obtain ⟨rfl, rfl⟩ := List.cons.inj he
          split at h
          · have := place?_within h
            simp only [List.length_cons] at hgap
            omega
          · cases h
        · cases h
  · exact place?_within h

/-- A frame is read from `at`, white space, and what stands behind it. -/
theorem match?_eq_some_iff {cs : List Char} : match? before cs = some f ↔
    ∃ rest, cs = 'a' :: 't' :: rest ∧ startsWord before = true ∧ rest.takeWhile isSpace ≠ [] ∧
      afterWord? (2 + (rest.takeWhile isSpace).length) (rest.dropWhile isSpace) = some f := by
  unfold match?
  split
  · simp [and_assoc]
  · rename_i hcs
    simpa using fun rest he => (hcs rest he).elim

/-- A frame that starts in a text does not go on into the line behind it. -/
theorem match?_within {y : List Char} (hd : isNameChar d = true) (hy : y ≠ [])
    (h : match? before (y ++ '\n' :: frameLine (d :: w)) = some f) : f.length ≤ y.length := by
  obtain ⟨rest, hcs, -, -, h⟩ := match?_eq_some_iff.1 h
  rcases y with _ | ⟨_, _ | ⟨_, y⟩⟩
  · exact (hy rfl).elim
  · cases (List.cons.inj (List.cons.inj hcs).2).1
  · obtain rfl : y ++ '\n' :: frameLine (d :: w) = rest :=
      (List.cons.inj (List.cons.inj hcs).2).2
    have hgap := length_takeWhile_add_dropWhile isSpace y
    by_cases hr : y.dropWhile isSpace = []
    · -- nothing but white space up to the line: what follows is its own `at`
      rw [List.dropWhile_append, if_pos (by simp [hr]), dropWhile_frameLine, afterWord?_at hd] at h
      cases h
    · obtain ⟨htake, hdrop⟩ := takeWhile_append_of_dropWhile hr ('\n' :: frameLine (d :: w))
      rw [htake, hdrop] at h
      have := afterWord?_within h
      simp only [List.length_cons]
      omega

/-- No frame that starts in front of a line with a frame goes on into it. -/
theorem endsIn_line (hd : isNameChar d = true) (u : List Char) :
    matcher.EndsIn before u ('\n' :: frameLine (d :: w)) := by
  intro x y f n _ hy hm
  obtain ⟨f, hf, he⟩ := Option.map_eq_some_iff.1 hm
  obtain ⟨rfl, rfl⟩ := Prod.mk.inj he
  exact match?_within hd hy hf

/-! ## The frame of a line -/

/-- A line and a column behind a file are read back. -/
theorem place?_file (first : Bool) (seen : Nat) {file line col rest : List Char}
    (hfile : ∀ c ∈ file, isNameChar c = true ∧ c ≠ ':') (hfirst : first = true → file ≠ [])
    (hline : IsNumeral line) (hcol : IsNumeral col) (hrest : rest = [] ∨ rest = [')']) :
    place? seen first (file ++ ':' :: line ++ ':' :: col ++ rest) =
      some ⟨line, col, seen + file.length + 1 + line.length + 1 + col.length + rest.length⟩ := by
  induction file generalizing seen first with
  | nil =>
    have hdigits : ∀ {ds : List Char}, IsNumeral ds → ∀ c ∈ ds, isDigit c = true :=
      fun h c hc => (isDigit_of_ascii (h.2 c hc)).1
    have hf : first = false := by
      cases first with
      | false => rfl
      | true => exact (hfirst rfl rfl).elim
    have hstop : rest.takeWhile isDigit = [] ∧ rest.dropWhile isDigit = rest := by
      rcases hrest with rfl | rfl <;> exact ⟨rfl, rfl⟩
    have htake : (line ++ ':' :: (col ++ rest)).takeWhile isDigit = line := by
      rw [takeWhile_append_cons (by rfl), List.takeWhile_eq_self_iff.2 (hdigits hline)]
    have hdrop : (line ++ ':' :: (col ++ rest)).dropWhile isDigit = ':' :: (col ++ rest) := by
      rw [dropWhile_append_cons (by rfl), List.dropWhile_eq_nil_iff.2 (hdigits hline),
        List.nil_append]
    have htake' : (col ++ rest).takeWhile isDigit = col := by
      rw [List.takeWhile_append_of_pos (hdigits hcol), hstop.1, List.append_nil]
    have hdrop' : (col ++ rest).dropWhile isDigit = rest := by
      rw [List.dropWhile_append_of_pos (hdigits hcol), hstop.2]
    have hclosing : (if rest.head? = some ')' then 1 else 0) = rest.length := by
      rcases hrest with rfl | rfl <;> rfl
    simp only [List.nil_append, List.cons_append, List.append_assoc, place?, hf, htake, hdrop,
      htake', hdrop', hclosing, List.tail_cons, List.head?_cons]
    simp [hline.1, hcol.1]
  | cons d file ih =>
    obtain ⟨hd, hne⟩ := hfile d (by simp)
    have hfile' : ∀ c ∈ file, isNameChar c = true ∧ c ≠ ':' := fun c hc => hfile c (by simp [hc])
    simp only [List.cons_append, place?, hne, hd, decide_false, Bool.and_false, Bool.false_and,
      Bool.false_eq_true, if_false, if_true]
    rw [ih _ _ hfile' (by simp)]
    simp only [List.length_cons, Option.some.injEq, mk.injEq, true_and]
    omega

end Frame

namespace WrittenFrame

open LiveScene.Diagnostics.Frame

variable (f : WrittenFrame)

/-- The characters of a file are those of names, without the colon. -/
theorem file_chars : ∀ c ∈ f.file, isNameChar c = true ∧ c ≠ ':' := fun c hc =>
  ⟨f.isFrameName_file.2 c hc, fun he => f.colon_notMem (he ▸ hc)⟩

/-- A bare place is made of characters of names. -/
theorem isNameChar_of_mem_bare :
    ∀ c ∈ f.file ++ ':' :: f.line ++ ':' :: f.col, isNameChar c = true := by
  have hcolon : isNameChar ':' = true := rfl
  simp only [List.mem_append, List.mem_cons]
  rintro c ((hc | rfl | hc) | rfl | hc)
  · exact (f.file_chars c hc).1
  · exact hcolon
  · exact (isDigit_of_ascii (f.isNumeral_line.2 c hc)).2
  · exact hcolon
  · exact (isDigit_of_ascii (f.isNumeral_col.2 c hc)).2

/-- A place is read back with its digits and ends where it was written to end. -/
theorem afterWord?_place (seen : Nat) :
    afterWord? seen f.place = some ⟨f.line, f.col, seen + f.place.length⟩ := by
  have hread := fun (seen : Nat) (rest : List Char) (hrest : rest = [] ∨ rest = [')']) =>
    place?_file true seen f.file_chars (fun _ => f.isFrameName_file.1)
      f.isNumeral_line f.isNumeral_col hrest
  cases hname : f.name with
  | none =>
    have hbare := hread seen [] (.inl rfl)
    rw [List.append_nil] at hbare
    simp only [place, hname, afterWord?, List.dropWhile_eq_nil_iff.2 f.isNameChar_of_mem_bare,
      hbare]
    simp
    omega
  | some n =>
    obtain ⟨hne, hn⟩ := f.isFrameName_name n hname
    have htake : ∀ v, (n ++ ' ' :: v).takeWhile isNameChar = n := fun v => by
      rw [takeWhile_append_cons (by rfl), List.takeWhile_eq_self_iff.2 hn]
    have hdrop : ∀ v, (n ++ ' ' :: v).dropWhile isNameChar = ' ' :: v := fun v => by
      rw [dropWhile_append_cons (by rfl), List.dropWhile_eq_nil_iff.2 hn, List.nil_append]
    have hgap : ∀ v, (' ' :: '(' :: v).takeWhile isSpace = [' '] ∧
        (' ' :: '(' :: v).dropWhile isSpace = '(' :: v := fun _ => ⟨rfl, rfl⟩
    have hparen := hread (seen + n.length + 1 + 1) [')'] (.inr rfl)
    simp only [place, hname, afterWord?, htake, hdrop, hgap, List.length_singleton, hparen]
    simp [hne]
    omega

/-- A place starts with a character of a file or a name. -/
theorem exists_place_eq : ∃ d w, f.place = d :: w ∧ isNameChar d = true := by
  have hcons : ∀ {n : List Char} (v : List Char), IsFrameName n →
      ∃ d w, n ++ v = d :: w ∧ isNameChar d = true := by
    rintro (_ | ⟨d, n⟩) v ⟨hne, hn⟩
    · exact (hne rfl).elim
    · exact ⟨d, n ++ v, rfl, hn d (by simp)⟩
  cases hname : f.name with
  | none =>
    simp only [place, hname, List.append_assoc]
    exact hcons _ f.isFrameName_file
  | some n =>
    simp only [place, hname]
    exact hcons _ (f.isFrameName_name n hname)

/-- The word `at` and a place behind it are a frame. -/
theorem match?_place {before : Option Char} (hbefore : startsWord before = true) :
    match? before ('a' :: 't' :: ' ' :: f.place) = some f.frame := by
  obtain ⟨d, w, hw, hd⟩ := f.exists_place_eq
  have hspace : (' ' :: f.place).takeWhile isSpace = [' '] ∧
      (' ' :: f.place).dropWhile isSpace = f.place := by
    have hs : isSpace ' ' = true := rfl
    simp [hw, hs, isSpace_of_isNameChar hd]
  refine match?_eq_some_iff.2 ⟨' ' :: f.place, rfl, hbefore, by simp [hspace], ?_⟩
  rw [hspace.1, hspace.2, f.afterWord?_place]
  simp [frame]
  omega

/-- The frame of a place is read from its text, and nothing else. -/
theorem frames_text : frames ('a' :: 't' :: ' ' :: f.place) = [f.frame] := by
  have hm : matcher none ('a' :: 't' :: ' ' :: f.place) = some (f.frame, f.frame.length) := by
    rw [matcher, f.match?_place rfl]
    rfl
  rw [frames, searchAll, searchFrom_of_whole hm (by simp) (Nat.le_refl _)]
  rfl

end WrittenFrame

/-- The frame on the last line of a text is the last one that is read, whatever stands in
front of the line. -/
theorem frames_getLast? (u : List Char) (f : WrittenFrame) :
    (frames (u ++ '\n' :: frameLine f.place)).getLast? = some f.frame := by
  obtain ⟨d, w, hw, hd⟩ := f.exists_place_eq
  have hends : Frame.matcher.EndsIn none u ('\n' :: frameLine f.place) :=
    hw ▸ Frame.endsIn_line hd u
  obtain ⟨found, hfound⟩ := searchFrom_append 0 hends (Nat.zero_le _)
  have hm : Frame.matcher (some ' ') ('a' :: 't' :: ' ' :: f.place) =
      some (f.frame, f.frame.length) := by
    rw [Frame.matcher, f.match?_place rfl]
    rfl
  have hskip : ∀ before start, ∃ start', searchFrom Frame.matcher before start 0
      ('\n' :: frameLine f.place) = searchFrom Frame.matcher (some ' ') start' 0
        ('a' :: 't' :: ' ' :: f.place) := fun _ _ => ⟨_, rfl⟩
  obtain ⟨start, hstart⟩ := hskip (lastOr none u) (0 + byteLength u)
  rw [frames, searchAll, hfound, hstart, searchFrom_of_whole hm (by simp) (Nat.le_refl _)]
  simp

/-! ## Lines and the message -/

theorem textLines_ne_nil {cs : List Char} (h : cs ≠ []) : textLines cs ≠ [] := by
  unfold textLines
  split
  · exact (h rfl).elim
  · simp
  · simp
  · split <;> simp

/-- A character that ends no line goes in front of the first one. -/
theorem textLines_cons {c : Char} {cs : List Char} (hc : c ≠ '\n')
    (hr : c = '\r' → cs.head? ≠ some '\n') :
    textLines (c :: cs) = (c :: (textLines cs).headD []) :: (textLines cs).tail := by
  rw [textLines.eq_4 c cs hc fun v hcr hv => hr hcr (by rw [hv]; rfl)]
  cases textLines cs <;> rfl

/-- A character in front of a text with a line end behind it goes to the first line, unless
it is one with the line end. -/
theorem textLines_cons_append {c : Char} {cs : List Char} (hc : c ≠ '\n')
    (hr : ∀ v, c = '\r' → cs = '\n' :: v → False) (hlone : ¬(c = '\r' ∧ cs = [])) (b : List Char) :
    textLines (c :: (cs ++ '\n' :: b)) =
      (c :: (textLines (cs ++ '\n' :: b)).headD []) :: (textLines (cs ++ '\n' :: b)).tail := by
  refine textLines_cons hc fun h => ?_
  rcases cs with _ | ⟨d, cs⟩
  · exact (hlone ⟨h, rfl⟩).elim
  · exact fun hd => hr cs h (by simpa using hd)

/-- The lines of two texts with a line end between them. -/
theorem textLines_append_newline (a b : List Char) :
    textLines (a ++ '\n' :: b) = textLines (a ++ ['\n']) ++ textLines b := by
  induction a using textLines.induct with
  | case1 => simp [textLines]
  | case2 cs ih | case3 cs ih => simp [textLines, ih]
  | case4 c cs hc hr _ ih | case5 c cs hc hr _ _ _ ih =>
    by_cases hlone : c = '\r' ∧ cs = []
    · obtain ⟨rfl, rfl⟩ := hlone
      simp [textLines]
    · rw [List.cons_append, List.cons_append, textLines_cons_append hc hr hlone,
        textLines_cons_append hc hr hlone, ih]
      cases h : textLines (cs ++ ['\n']) with
      | nil => exact (textLines_ne_nil (by simp) h).elim
      | cons l ls => simp

/-- A line end behind a text changes its lines only by white space. -/
theorem textLines_newline (a : List Char) :
    textLines (a ++ ['\n']) = textLines a ∨ textLines (a ++ ['\n']) = textLines a ++ [[]] ∨
      ∃ ls l, textLines a = ls ++ [l ++ ['\r']] ∧ textLines (a ++ ['\n']) = ls ++ [l] := by
  induction a using textLines.induct with
  | case1 => simp [textLines]
  | case2 cs ih | case3 cs ih =>
    simp only [List.cons_append, textLines]
    rcases ih with h | h | ⟨ls, l, h1, h2⟩
    · exact .inl (by rw [h])
    · exact .inr (.inl (by rw [h]))
    · exact .inr (.inr ⟨[] :: ls, l, by simp [h1], by simp [h2]⟩)
  | case4 c cs hc hr _ ih | case5 c cs hc hr _ _ _ ih =>
    by_cases hlone : c = '\r' ∧ cs = []
    · obtain ⟨rfl, rfl⟩ := hlone
      exact .inr (.inr ⟨[], [], by simp [textLines]⟩)
    · have hhead : c = '\r' → cs.head? ≠ some '\n' := fun h hd => by
        obtain ⟨v, rfl⟩ := List.head?_eq_some_iff.1 hd
        exact hr v h rfl
      rw [List.cons_append, textLines_cons_append hc hr hlone, textLines_cons hc hhead]
      rcases ih with h | h | ⟨ls, l, h1, h2⟩
      · exact .inl (by rw [h])
      · rw [h]
        cases textLines cs with
        | nil => exact .inl rfl
        | cons x xs => exact .inr (.inl rfl)
      · rw [h1, h2]
        cases ls with
        | nil => exact .inr (.inr ⟨[], c :: l, rfl, rfl⟩)
        | cons x xs => exact .inr (.inr ⟨(c :: x) :: xs, l, rfl, rfl⟩)

/-- A text without a line end is one line. -/
theorem textLines_of_notMem {x : List Char} (hne : x ≠ []) (hx : '\n' ∉ x) :
    textLines x = [x] := by
  induction x with
  | nil => exact (hne rfl).elim
  | cons c x ih =>
    simp only [List.mem_cons, not_or] at hx
    have hhead : c = '\r' → x.head? ≠ some '\n' := fun _ hd => hx.2 (List.mem_of_mem_head? hd)
    rw [textLines_cons (Ne.symm hx.1) hhead]
    rcases eq_or_ne x [] with rfl | hne'
    · rfl
    · rw [ih hne' hx.2]
      rfl

theorem textLines_newline_of_notMem {x : List Char} (hne : x ≠ []) (hx : '\n' ∉ x)
    (hr : '\r' ∉ x) : textLines (x ++ ['\n']) = [x] := by
  induction x with
  | nil => exact (hne rfl).elim
  | cons c x ih =>
    simp only [List.mem_cons, not_or] at hx hr
    rw [List.cons_append, textLines_cons (Ne.symm hx.1) fun h => (hr.1 h.symm).elim]
    rcases eq_or_ne x [] with rfl | hne'
    · rfl
    · rw [ih hne' hx.2 hr.2]
      rfl

/-- White space behind a text is trimmed off. -/
theorem trim_append_space (cs : List Char) {c : Char} (hc : isSpace c = true) :
    trim (cs ++ [c]) = trim cs := by
  unfold trim
  rw [List.dropWhile_append]
  split_ifs with h
  · have hnil : cs.dropWhile isSpace = [] := by simpa using h
    simp [hnil, hc]
  · simp [hc]

namespace WrittenFrame

variable (f : WrittenFrame)

/-- A place ends with a character that is not trimmed off. -/
theorem exists_place_append : ∃ x z, f.place = x ++ [z] ∧ isSpace z = false := by
  obtain ⟨col, z, hcol⟩ := List.eq_nil_or_concat f.col |>.resolve_left f.isNumeral_col.1
  cases hname : f.name with
  | none =>
    refine ⟨f.file ++ ':' :: f.line ++ ':' :: col, z, by simp [place, hname, hcol], ?_⟩
    exact isSpace_of_isNameChar (isDigit_of_ascii (f.isNumeral_col.2 z (by simp [hcol]))).2
  | some n => exact ⟨n ++ ' ' :: '(' :: (f.file ++ ':' :: f.line ++ ':' :: f.col), ')',
      by simp [place, hname], rfl⟩

/-- Trimming a line with a frame leaves its `at` and its place. -/
theorem trim_frameLine : trim (frameLine f.place) = 'a' :: 't' :: ' ' :: f.place := by
  obtain ⟨x, z, hx, hz⟩ := f.exists_place_append
  have hdrop : (frameLine f.place).dropWhile isSpace = 'a' :: 't' :: ' ' :: f.place := rfl
  rw [trim, hdrop, hx]
  simp [hz]

/-- A line with a frame is one line. -/
theorem lineEnds_notMem : '\n' ∉ frameLine f.place ∧ '\r' ∉ frameLine f.place := by
  have hname : ∀ {c : Char}, isNameChar c = true → c ≠ '\n' ∧ c ≠ '\r' := by
    intro c hc
    constructor <;> rintro rfl <;> cases isSpace_of_isNameChar hc
  have hplace : ∀ c ∈ f.place, c ≠ '\n' ∧ c ≠ '\r' := by
    intro c hc
    cases hn : f.name with
    | none =>
      simp only [place, hn] at hc
      exact hname (f.isNameChar_of_mem_bare c hc)
    | some n =>
      simp only [place, hn, List.mem_append (s := n), List.mem_cons, List.mem_append (t := [')']),
        List.not_mem_nil, or_false] at hc
      rcases hc with hc | rfl | rfl | hc | rfl
      · exact hname ((f.isFrameName_name n hn).2 c hc)
      · decide
      · decide
      · exact hname (f.isNameChar_of_mem_bare c hc)
      · decide
  have hlead : '\n' ∉ [' ', ' ', ' ', ' ', 'a', 't', ' '] ∧
      '\r' ∉ [' ', ' ', ' ', ' ', 'a', 't', ' '] := by decide
  simp only [frameLine, List.mem_append, hlead, false_or]
  exact ⟨fun h => (hplace _ h).1 rfl, fun h => (hplace _ h).2 rfl⟩

/-- So it is where it is the last one, with a line end or without. -/
theorem textLines_frameLine :
    textLines (frameLine f.place) = [frameLine f.place] ∧
      textLines (frameLine f.place ++ ['\n']) = [frameLine f.place] := by
  obtain ⟨hn, hr⟩ := f.lineEnds_notMem
  exact ⟨textLines_of_notMem (by simp [frameLine]) hn,
    textLines_newline_of_notMem (by simp [frameLine]) hn hr⟩

end WrittenFrame

/-- The lines of frames behind a text. -/
theorem textLines_append_frameLines (u : List Char) (f : WrittenFrame) (fs : List WrittenFrame) :
    textLines (u ++ (f :: fs).flatMap fun f => '\n' :: frameLine f.place) =
      textLines (u ++ ['\n']) ++ (f :: fs).map fun f => frameLine f.place := by
  induction fs generalizing u f with
  | nil =>
    rw [List.flatMap_singleton, textLines_append_newline, f.textLines_frameLine.1]
    rfl
  | cons g fs ih =>
    rw [List.flatMap_cons, List.cons_append, textLines_append_newline, ih,
      f.textLines_frameLine.2]
    rfl

/-- Whether a line can be the message of a trace. -/
def isMessage (l : List Char) : Bool := l ≠ [] && frames l = []

/-- The message of a trace is its first line that is one. -/
theorem traceMessage_eq (cs : List Char) :
    traceMessage cs = (((textLines cs).map trim).find? isMessage).getD [] := rfl

/-- The message of a text is the same with lines of frames behind it. -/
theorem traceMessage_append_lines (u : List Char) (fs : List WrittenFrame) :
    traceMessage (u ++ fs.flatMap fun f => '\n' :: frameLine f.place) = traceMessage u := by
  cases fs with
  | nil => simp
  | cons f fs =>
    have hframes : (((f :: fs).map fun f => frameLine f.place).map trim).find? isMessage =
        none := by
      simp [WrittenFrame.trim_frameLine, isMessage, WrittenFrame.frames_text]
    have hblank : isMessage (trim []) = false := rfl
    rw [traceMessage_eq, traceMessage_eq, textLines_append_frameLines, List.map_append,
      List.find?_append, hframes, Option.or_none]
    rcases textLines_newline u with h | h | ⟨ls, l, h1, h2⟩
    · rw [h]
    · rw [h, List.map_append, List.find?_append]
      simp [hblank]
    · rw [h1, h2, List.map_append, List.map_append, List.map_singleton, List.map_singleton,
        trim_append_space l rfl]

/-- A line without a frame that has no white space at its ends is its own message. -/
theorem traceMessage_of_line {m : List Char} (hne : m ≠ []) (hline : '\n' ∉ m)
    (htrim : trim m = m) (hframes : frames m = []) : traceMessage m = m := by
  rw [traceMessage_eq, textLines_of_notMem hne hline]
  simp [htrim, isMessage, hne, hframes]

end LiveScene.Diagnostics
