import LiveScene.Proofs.Compiler.Zones

/-!
# The scan for comments and strings

The ranges can be found with nothing but an index into the source, which moves
by one or two bytes at a time: `Cursor.turn` is one turn of such a scan. The
index can run past the end of the source, the scan gives up at a `*/` too many,
and nothing in it says that it ends.

What is found in the end is the same before and behind a turn, and only so many
turns can follow (`keeps_turn`). This carries over to any number of turns
(`keeps_turns`): the scan meets no `*/` too many, and it ends with the ranges of
the source. Since these are in order, a search by halves finds the one that
starts at a byte (`searchStart?_eq_some_iff`).

`inertRanges_scanned` says all of this, and what the ranges are.
-/

namespace LiveScene.Compiler

/-! ## The scan by an index -/

/-- The loop that the scan is in. -/
inductive Loop where
  | code
  /-- Up to the end of a line. -/
  | line (start : Nat)
  /-- Up to the end of a block comment, inside of `depth` open ones. -/
  | block (start depth : Nat)
  /-- Up to a quote. -/
  | string (start : Nat) (quote : UInt8)
  deriving DecidableEq, Repr

/-- How far a scan has come. -/
structure Cursor where
  index : Nat
  loop : Loop
  found : List ByteRange
  deriving DecidableEq, Repr

/-- What a turn of a loop comes to. -/
inductive Turn where
  | on (c : Cursor)
  | done (found : List ByteRange)
  /-- A `*/` where no block comment is open. -/
  | underflow
  deriving DecidableEq, Repr

namespace Cursor

/-- In front of a source. -/
def initial : Cursor := ⟨0, .code, []⟩

/-- Leave the loop of a comment or a string and go on at an index, which may lie behind the end. -/
def close (bs : List UInt8) (found : List ByteRange) (start index : Nat) : Turn :=
  .on ⟨index, .code, found ++ [⟨start, min index bs.length⟩]⟩

/-- One turn of the loop at hand. -/
def turn (bs : List UInt8) : Cursor → Turn
  | ⟨i, .code, found⟩ =>
    match bs.drop i with
    | [] => .done found
    | b :: rest =>
      if b = byte '/' ∧ rest.head? = some (byte '/') then .on ⟨i, .line i, found⟩
      else if b = byte '/' ∧ rest.head? = some (byte '*') then .on ⟨i, .block i 0, found⟩
      else if isQuote b then .on ⟨i + 1, .string i b, found⟩
      else .on ⟨i + 1, .code, found⟩
  | ⟨i, .line start, found⟩ =>
    match bs.drop i with
    | [] => close bs found start i
    | b :: _ => if b = byte '\n' then close bs found start i else .on ⟨i + 1, .line start, found⟩
  | ⟨i, .block start depth, found⟩ =>
    match bs.drop i with
    | [] => close bs found start i
    | b :: rest =>
      if b = byte '/' ∧ rest.head? = some (byte '*') then
        .on ⟨i + 2, .block start (depth + 1), found⟩
      else if b = byte '*' ∧ rest.head? = some (byte '/') then
        if depth = 0 then .underflow
        else if depth = 1 then close bs found start (i + 2)
        else .on ⟨i + 2, .block start (depth - 1), found⟩
      else .on ⟨i + 1, .block start depth, found⟩
  | ⟨i, .string start quote, found⟩ =>
    match bs.drop i with
    | [] => close bs found start (i + 1)
    | b :: _ =>
      if b = quote then close bs found start (i + 1)
      else if b = byte '\\' then .on ⟨i + 2, .string start quote, found⟩
      else .on ⟨i + 1, .string start quote, found⟩

/-- What a number of turns come to. A scan that has stopped stays as it is. -/
def turns (bs : List UInt8) : Nat → Cursor → Turn
  | 0, c => .on c
  | n + 1, c =>
    match c.turn bs with
    | .on c' => turns bs n c'
    | stopped => stopped

end Cursor

/-! ## What a turn keeps -/

/-- The ranges that are open: one inside of a comment or a string. -/
def Loop.opened : Loop → Nat
  | code => 0
  | _ => 1

/-- The ranges in the end, where a comment or a string that started at `start` is read on at an
index in a zone. -/
def closing (bs : List UInt8) (found : List ByteRange) (start : Nat) (z : Zone) (i : Nat) :
    List ByteRange :=
  found ++ ⟨start, min (i + z.left (bs.drop i)) bs.length⟩ ::
    inertFrom i (z.left (bs.drop i)) (bs.drop i)

namespace Cursor

/-- The ranges that a scan finds in the end. -/
def result (bs : List UInt8) : Cursor → List ByteRange
  | ⟨i, .code, found⟩ => found ++ inertFrom i 0 (bs.drop i)
  | ⟨i, .line start, found⟩ => closing bs found start .line i
  | ⟨i, .block start depth, found⟩ => closing bs found start (.block depth) i
  | ⟨i, .string start quote, found⟩ => closing bs found start (.string quote) i

/-- With no block comment open, one is only read at its first `/*`. -/
def Sound (bs : List UInt8) (c : Cursor) : Prop :=
  ∀ start, c.loop = .block start 0 → ∃ rest, bs.drop c.index = byte '/' :: byte '*' :: rest

/-- A bound on the turns to come but for the last one: one for each byte, and two for each range,
one of which is over where the range is open. -/
def rank (bs : List UInt8) (c : Cursor) : Nat :=
  (bs.length - c.index) + 2 * ((c.result bs).length - c.found.length) - c.loop.opened

end Cursor

/-- What `n` turns from a cursor on come to is sound, has the same ranges in the end, and is nearer
to the end. -/
def Keeps (bs : List UInt8) (c : Cursor) (n : Nat) : Turn → Prop
  | .on c' => c'.Sound bs ∧ c'.result bs = c.result bs ∧ c'.rank bs + n ≤ c.rank bs
  | .done found => found = c.result bs
  | .underflow => False

section Turns

variable {bs rest : List UInt8} {found : List ByteRange} {b : UInt8} {z : Zone} {start i j : Nat}

/-- An index with something behind it is one of the text. -/
theorem lt_length_of_drop (hd : bs.drop i = b :: rest) : i < bs.length := by
  by_contra h
  simp [List.drop_eq_nil_of_le (Nat.le_of_not_lt h)] at hd

/-- One index further, the first byte is gone. -/
theorem drop_succ_of_drop (hd : bs.drop i = b :: rest) : bs.drop (i + 1) = rest := by
  rw [← List.drop_drop, hd]
  rfl

/-- Reading a byte of a comment or a string changes nothing about the ranges in the end. -/
theorem closing_read (hd : bs.drop i = b :: rest) (hz : z ≠ .code)
    (hown : (z.read b rest.head?).own ≠ .code) :
    closing bs found start z i = closing bs found start (z.read b rest.head?).next (i + 1) := by
  rw [closing, closing, hd, drop_succ_of_drop hd,
    inertFrom_of_not_opens i fun h => absurd h hz, Zone.left_cons hz hown, Nat.add_assoc]

/-- At the end of the source it makes no difference what is open, nor how far behind the end the
index is. -/
theorem closing_of_end (hd : bs.drop i = []) (hj : i ≤ j) (z' : Zone) :
    closing bs found start z i = closing bs found start z' j := by
  have hle : bs.length ≤ i := List.drop_eq_nil_iff.1 hd
  have hd' : bs.drop j = [] := List.drop_eq_nil_of_le (hle.trans hj)
  rw [closing, closing, hd, hd', Zone.left_nil, Zone.left_nil, inertFrom, inertFrom,
    Nat.add_zero, Nat.add_zero, Nat.min_eq_right hle, Nat.min_eq_right (hle.trans hj)]

/-- It makes no difference what is open if nothing of it is left. -/
theorem closing_of_left (h : z.left (bs.drop i) = 0) :
    closing bs found start z i = closing bs found start .code i := by
  rw [closing, closing, h, Zone.left_code]

/-- Two bytes that are read at once open or close a block comment. -/
theorem closing_of_mark {depth depth' : Nat} {c : UInt8} (hd : bs.drop i = b :: c :: rest)
    (hread : (Zone.block depth).read b (some c) = ⟨.block depth, .mark depth'⟩) :
    closing bs found start (.block depth) i =
      closing bs found start (if depth' = 0 then .code else .block depth') (i + 2) := by
  have hsecond : (Zone.mark depth').read c rest.head? =
    ⟨.mark depth', if depth' = 0 then .code else .block depth'⟩ := rfl
  rw [closing_read hd (by simp) (by simp [hread]), List.head?_cons, hread,
    closing_read (drop_succ_of_drop hd) (by simp) (by simp [hsecond]), hsecond]

/-- An opening of a block comment inside of one is stepped over. -/
theorem closing_of_opener (depth : Nat) (hd : bs.drop i = b :: rest)
    (h : b = byte '/' ∧ rest.head? = some (byte '*')) :
    closing bs found start (.block depth) i =
      closing bs found start (.block (depth + 1)) (i + 2) := by
  obtain ⟨rfl, hahead⟩ := h
  obtain ⟨rest, rfl⟩ := List.head?_eq_some_iff.1 hahead
  rw [closing_of_mark hd rfl, if_neg (Nat.succ_ne_zero depth)]

/-- A closing is stepped over, and ends the comment if it is the last one open. -/
theorem closing_of_closer (depth : Nat) (hd : bs.drop i = b :: rest)
    (h : b = byte '*' ∧ rest.head? = some (byte '/')) :
    closing bs found start (.block depth) i =
      closing bs found start (if depth - 1 = 0 then .code else .block (depth - 1)) (i + 2) := by
  obtain ⟨rfl, hahead⟩ := h
  obtain ⟨rest, rfl⟩ := List.head?_eq_some_iff.1 hahead
  exact closing_of_mark hd rfl

/-- Where the range has ended, it is added to those found. -/
theorem closing_code (bs : List UInt8) (found : List ByteRange) (start i : Nat) :
    closing bs found start .code i =
      (⟨i, .code, found ++ [⟨start, min i bs.length⟩]⟩ : Cursor).result bs := by
  simp [closing, Cursor.result]

/-- Where something opens in code, its range is one of those in the end. -/
theorem result_of_opens (hd : bs.drop i = b :: rest) (h : Opens (b :: rest)) :
    (⟨i, .code, found⟩ : Cursor).result bs =
      closing bs found i (Zone.code.read b rest.head?).next (i + 1) := by
  have hlength : rest.length + (i + 1) = bs.length := by
    have := lt_length_of_drop hd
    rw [← drop_succ_of_drop hd, List.length_drop]
    omega
  have := (Zone.code.read b rest.head?).next.left_le_length rest
  rw [Cursor.result, closing, hd, drop_succ_of_drop hd, inertFrom_of_opens i h,
    Nat.min_eq_left (by omega)]

/-- A byte of code is stepped over. -/
theorem result_of_not_opens (hd : bs.drop i = b :: rest) (h : ¬ Opens (b :: rest)) :
    (⟨i, .code, found⟩ : Cursor).result bs = (⟨i + 1, .code, found⟩ : Cursor).result bs := by
  have hnext := (Zone.of_own_code (not_not.1 (opens_iff.not.1 h))).1
  have hsame := inertFrom_of_not_opens (z := .code) i fun _ => h
  rw [hnext] at hsame
  rw [Cursor.result, Cursor.result, hd, drop_succ_of_drop hd]
  exact congrArg (found ++ ·) hsame

variable {c c' : Cursor}

/-- A scan keeps the ranges it has found, and closes the one it is in. -/
theorem length_result (bs : List UInt8) (c : Cursor) :
    c.found.length + c.loop.opened ≤ (c.result bs).length := by
  obtain ⟨i, loop, found⟩ := c
  cases loop <;> simp [Cursor.result, Loop.opened, closing]

/-- A turn that closes no range brings the end nearer by a byte or by the opening of one. -/
theorem keeps_on (hsound : c'.Sound bs) (hresult : c'.result bs = c.result bs)
    (hfound : c'.found = c.found)
    (hnearer : bs.length - c'.index + c.loop.opened < bs.length - c.index + c'.loop.opened) :
    Keeps bs c 1 (.on c') := by
  refine ⟨hsound, hresult, ?_⟩
  have h := length_result bs c
  have h' := length_result bs c'
  rw [hresult, hfound] at h'
  simp only [Cursor.rank, hresult, hfound]
  omega

/-- So does one that closes the range at hand. -/
theorem keeps_close (hresult : c.result bs = closing bs c.found start .code j)
    (hopen : c.loop.opened = 1) (hj : c.index ≤ j) :
    Keeps bs c 1 (Cursor.close bs c.found start j) := by
  rw [closing_code] at hresult
  refine ⟨fun _ h => by simp at h, hresult.symm, ?_⟩
  have h := length_result bs c
  simp only [Cursor.rank, ← hresult, hopen, List.length_append, List.length_singleton] at h ⊢
  simp only [Loop.opened]
  omega

/-- In code a turn opens what there is to open, or passes a byte. -/
theorem keeps_turn_code (found : List ByteRange) (i : Nat) :
    Keeps bs ⟨i, .code, found⟩ 1 (Cursor.turn bs ⟨i, .code, found⟩) := by
  rw [Cursor.turn]
  cases hd : bs.drop i with
  | nil => simp [Keeps, Cursor.result, hd, inertFrom]
  | cons b rest =>
    have hlt := lt_length_of_drop hd
    dsimp only
    split_ifs with hline hblock hquote
    · obtain ⟨rfl, hahead⟩ := hline
      obtain ⟨rest, rfl⟩ := List.head?_eq_some_iff.1 hahead
      refine keeps_on (fun _ h => by simp at h) ?_ rfl (by simp [Loop.opened])
      have hread : Zone.line.read (byte '/') (some (byte '/')) = ⟨.line, .line⟩ := rfl
      rw [result_of_opens hd (.line rest), Cursor.result,
        closing_read hd (by simp) (by simp [hread])]
      rfl
    · obtain ⟨rfl, hahead⟩ := hblock
      obtain ⟨rest, rfl⟩ := List.head?_eq_some_iff.1 hahead
      refine keeps_on (fun _ _ => ⟨rest, hd⟩) ?_ rfl (by simp [Loop.opened])
      have hread : (Zone.block 0).read (byte '/') (some (byte '*')) = ⟨.block 0, .mark 1⟩ := rfl
      rw [result_of_opens hd (.block rest), Cursor.result,
        closing_read hd (by simp) (by simp [hread])]
      rfl
    · refine keeps_on (fun _ h => by simp at h) ?_ rfl (by simp [Loop.opened]; omega)
      rw [result_of_opens hd (.quote hquote rest), Cursor.result, Zone.read, if_pos hquote]
    · have hopens : ¬ Opens (b :: rest) := by
        rintro (⟨h⟩ | ⟨_⟩ | ⟨_⟩)
        · exact hquote h
        · exact hline ⟨rfl, rfl⟩
        · exact hblock ⟨rfl, rfl⟩
      refine keeps_on (fun _ h => by simp at h) (result_of_not_opens hd hopens).symm rfl ?_
      simp only
      omega

/-- In a line comment a turn reads a byte that does not end the line. -/
theorem keeps_turn_line (start : Nat) (found : List ByteRange) (i : Nat) :
    Keeps bs ⟨i, .line start, found⟩ 1 (Cursor.turn bs ⟨i, .line start, found⟩) := by
  rw [Cursor.turn]
  cases hd : bs.drop i with
  | nil => exact keeps_close (closing_of_end hd (Nat.le_refl i) .code) rfl (Nat.le_refl i)
  | cons b rest =>
    have hlt := lt_length_of_drop hd
    dsimp only
    split_ifs with hb
    · refine keeps_close (closing_of_left ?_) rfl (Nat.le_refl i)
      simp [hd, hb, Zone.left, lineCommentLength]
    · have hread : Zone.line.read b rest.head? = ⟨.line, .line⟩ := by rw [Zone.read, if_neg hb]
      refine keeps_on (fun _ h => by simp at h) ?_ rfl (by simp only [Loop.opened]; omega)
      rw [Cursor.result, Cursor.result, closing_read hd (by simp) (by simp [hread]), hread]

/-- In a block comment a turn reads a byte, or the two that open or close one. -/
theorem keeps_turn_block {start depth : Nat} {found : List ByteRange} {i : Nat}
    (h : Cursor.Sound bs ⟨i, .block start depth, found⟩) :
    Keeps bs ⟨i, .block start depth, found⟩ 1 (Cursor.turn bs ⟨i, .block start depth, found⟩) := by
  rw [Cursor.turn]
  cases hd : bs.drop i with
  | nil => exact keeps_close (closing_of_end hd (Nat.le_refl i) .code) rfl (Nat.le_refl i)
  | cons b rest =>
    have hlt := lt_length_of_drop hd
    dsimp only
    split_ifs with hopen hclose hzero hone
    · exact keeps_on (fun _ h => by simp at h) (closing_of_opener depth hd hopen).symm rfl
        (by simp only [Loop.opened]; omega)
    · subst hzero
      obtain ⟨rest', hrest'⟩ := h start rfl
      obtain rfl : b = byte '/' := by simpa [hd] using congrArg List.head? hrest'
      exact absurd hclose.1 (by decide)
    · subst hone
      exact keeps_close (closing_of_closer 1 hd hclose) rfl (Nat.le_add_right i 2)
    · have hresult : closing bs found start (.block depth) i =
          closing bs found start (.block (depth - 1)) (i + 2) := by
        rw [closing_of_closer depth hd hclose, if_neg (by omega)]
      exact keeps_on (fun _ h => by simp at h; omega) hresult.symm rfl
        (by simp only [Loop.opened]; omega)
    · have hread : (Zone.block depth).read b rest.head? = ⟨.block depth, .block depth⟩ := by
        rw [Zone.read, if_neg hopen, if_neg hclose]
      refine keeps_on (fun s hs => ?_) ?_ rfl (by simp only [Loop.opened]; omega)
      · -- With no comment open the first case applies, that of `/*`.
        obtain rfl : depth = 0 := by simp at hs; exact hs.2
        obtain ⟨rest', hrest'⟩ := h start rfl
        simp only [hd, List.cons.injEq] at hrest'
        exact absurd ⟨hrest'.1, by rw [hrest'.2]; rfl⟩ hopen
      · rw [Cursor.result, Cursor.result, closing_read hd (by simp) (by simp [hread]), hread]

/-- In a string a turn reads a byte, and the one behind it too if it is a backslash. -/
theorem keeps_turn_string (start : Nat) (quote : UInt8) (found : List ByteRange) (i : Nat) :
    Keeps bs ⟨i, .string start quote, found⟩ 1
      (Cursor.turn bs ⟨i, .string start quote, found⟩) := by
  rw [Cursor.turn]
  cases hd : bs.drop i with
  | nil => exact keeps_close (closing_of_end hd (Nat.le_succ i) .code) rfl (Nat.le_succ i)
  | cons b rest =>
    have hlt := lt_length_of_drop hd
    have hd' := drop_succ_of_drop hd
    have hown : ((Zone.string quote).read b rest.head?).own = .string quote := by
      simp only [Zone.read]
      split_ifs <;> rfl
    have hresult : closing bs found start (.string quote) i =
        closing bs found start ((Zone.string quote).read b rest.head?).next (i + 1) :=
      closing_read hd (by simp) (by simp [hown])
    rw [Zone.read] at hresult
    dsimp only
    split_ifs at hresult ⊢ with hclose hescape
    · exact keeps_close hresult rfl (Nat.le_succ i)
    · refine keeps_on (fun _ h => by simp at h) ?_ rfl (by simp only [Loop.opened]; omega)
      rw [Cursor.result, Cursor.result, hresult]
      cases rest with
      | nil => exact (closing_of_end hd' (Nat.le_succ _) _).symm
      | cons c rest =>
        have hread : (Zone.escaped quote).read c rest.head? =
          ⟨.escaped quote, .string quote⟩ := rfl
        rw [closing_read hd' (by simp) (by simp [hread]), hread]
    · exact keeps_on (fun _ h => by simp at h) hresult.symm rfl (by simp only [Loop.opened]; omega)

/-- A turn of a sound scan keeps what there is. -/
theorem keeps_turn (h : c.Sound bs) : Keeps bs c 1 (c.turn bs) := by
  obtain ⟨i, loop, found⟩ := c
  cases loop with
  | code => exact keeps_turn_code found i
  | line start => exact keeps_turn_line start found i
  | block start depth => exact keeps_turn_block h
  | string start quote => exact keeps_turn_string start quote found i

/-- Turns that keep the result, one behind the other. -/
theorem Keeps.trans {t : Turn} {m n : Nat} (h : Keeps bs c m (.on c')) (h' : Keeps bs c' n t) :
    Keeps bs c (n + m) t := by
  obtain ⟨-, hresult, hrank⟩ := h
  cases t with
  | on c'' =>
    obtain ⟨hsound, hresult', hrank'⟩ := h'
    exact ⟨hsound, hresult'.trans hresult, by omega⟩
  | done found => exact Eq.trans h' hresult
  | underflow => exact h'

/-- So does any number of turns. -/
theorem keeps_turns (h : c.Sound bs) (n : Nat) : Keeps bs c n (Cursor.turns bs n c) := by
  induction n generalizing c with
  | zero => exact ⟨h, rfl, Nat.le_refl _⟩
  | succ n ih =>
    have hturn := keeps_turn h
    rw [Cursor.turns]
    cases ht : c.turn bs with
    | on c' =>
      rw [ht] at hturn
      exact hturn.trans (ih hturn.1)
    | done found =>
      rw [ht] at hturn
      exact hturn
    | underflow =>
      rw [ht] at hturn
      exact hturn

/-- A scan that has not begun is sound. -/
theorem sound_initial (bs : List UInt8) : Cursor.initial.Sound bs := fun _ h => by
  simp [Cursor.initial] at h

/-- The scan of a source never comes to a `*/` with no block comment open. -/
theorem turns_ne_underflow (source : List UInt8) (n : Nat) :
    Cursor.turns source n .initial ≠ .underflow := by
  intro h
  have hn := keeps_turns (sound_initial source) n
  rw [h] at hn
  exact hn

/-- The scan of a source ends with its ranges. -/
theorem turns_eq_done (source : List UInt8) :
    Cursor.turns source (source.length + 2 * (inertRanges source).length + 1) .initial =
      .done (inertRanges source) := by
  have hrank : Cursor.initial.rank source = source.length + 2 * (inertRanges source).length := rfl
  have hn := keeps_turns (sound_initial source)
    (source.length + 2 * (inertRanges source).length + 1)
  cases h : Cursor.turns source (source.length + 2 * (inertRanges source).length + 1) .initial with
  | on c =>
    rw [h] at hn
    have := hn.2.2
    omega
  | done found =>
    rw [h] at hn
    exact congrArg Turn.done hn
  | underflow =>
    rw [h] at hn
    exact hn.elim

end Turns

/-! ## The search by halves -/

/-- Halve `size` ranges from the one of a number on until one is left: the last of them that starts
no later than a byte, if there is one. -/
def bisect (ranges : List ByteRange) (start first size : Nat) : Nat :=
  if size ≤ 1 then first
  else
    let middle := first + size / 2
    if (ranges[middle]?).any (·.start ≤ start) then
      bisect ranges start middle (size - size / 2)
    else bisect ranges start first (size - size / 2)
termination_by size

/-- The number of the range that starts at a byte. -/
def searchStart? (ranges : List ByteRange) (start : Nat) : Option Nat :=
  let n := bisect ranges start 0 ranges.length
  if (ranges[n]?).any (·.start = start) then some n else none

section Search

variable {ranges : List ByteRange} {r s : ByteRange} {start k m : Nat}

/-- Of ordered ranges a later one starts later. -/
theorem start_lt_of_lt (hsorted : ranges.Pairwise (·.start < ·.start)) (hm : ranges[m]? = some s)
    (hk : ranges[k]? = some r) (hlt : m < k) : s.start < r.start := by
  obtain ⟨hm', rfl⟩ := List.getElem?_eq_some_iff.1 hm
  obtain ⟨hk', rfl⟩ := List.getElem?_eq_some_iff.1 hk
  exact List.pairwise_iff_getElem.1 hsorted m k hm' hk' hlt

/-- Of ranges in order, halving does not lose the one that starts at a byte. -/
theorem bisect_eq (hsorted : ranges.Pairwise (·.start < ·.start)) {first size : Nat}
    (hk : ranges[k]? = some r) (hstart : r.start = start) (hfirst : first ≤ k)
    (hlt : k < first + size) : bisect ranges start first size = k := by
  fun_induction bisect ranges start first size with
  | case1 first size hsize => omega
  | case2 first size hsize middle hle ih =>
    obtain ⟨s, hs, hle⟩ := (Option.any_eq_true _ _).1 hle
    refine ih (Nat.le_of_not_lt fun hlt => ?_) (by omega)
    have := start_lt_of_lt hsorted hk hs hlt
    simp only [decide_eq_true_eq] at hle
    omega
  | case3 first size hsize middle hle ih =>
    refine ih hfirst ?_
    suffices k < middle by omega
    refine Nat.lt_of_not_le fun hmk => hle ?_
    have hm : middle < ranges.length := hmk.trans_lt (List.getElem?_eq_some_iff.1 hk).1
    rw [List.getElem?_eq_getElem hm, Option.any_some, decide_eq_true_eq, ← hstart]
    rcases Nat.lt_or_eq_of_le hmk with hmk | rfl
    · exact (start_lt_of_lt hsorted (List.getElem?_eq_getElem hm) hk hmk).le
    · rw [List.getElem?_eq_getElem hm] at hk
      exact (congrArg ByteRange.start (Option.some.inj hk)).le

/-- In ranges in order the search finds the one that starts at a byte, and no other. -/
theorem searchStart?_eq_some_iff (hsorted : ranges.Pairwise (·.start < ·.start)) :
    searchStart? ranges start = some k ↔ ∃ r, ranges[k]? = some r ∧ r.start = start := by
  constructor
  · intro h
    simp only [searchStart?] at h
    split_ifs at h with hany
    obtain ⟨r, hr, hstart⟩ := (Option.any_eq_true _ _).1 hany
    exact ⟨r, Option.some.inj h ▸ hr, by simpa using hstart⟩
  · rintro ⟨r, hk, hstart⟩
    have hlt := (List.getElem?_eq_some_iff.1 hk).1
    have hbisect : bisect ranges start 0 ranges.length = k :=
      bisect_eq hsorted hk hstart (Nat.zero_le k) (by omega)
    simp [searchStart?, hbisect, hk, hstart]

/-- Among ordered ranges the search succeeds for the starts of ranges and for nothing else. -/
theorem isSome_searchStart?_iff (hsorted : ranges.Pairwise (·.start < ·.start)) :
    (searchStart? ranges start).isSome = true ↔ ∃ r ∈ ranges, r.start = start := by
  simp only [Option.isSome_iff_exists, searchStart?_eq_some_iff hsorted, List.mem_iff_getElem?]
  exact ⟨fun ⟨k, r, hk, hr⟩ => ⟨r, ⟨k, hk⟩, hr⟩, fun ⟨r, ⟨k, hk⟩, hr⟩ => ⟨k, r, hk, hr⟩⟩

/-- What is found by halves is found from the front. -/
theorem find?_eq_searchStart? (hsorted : ranges.Pairwise (·.start < ·.start)) :
    ranges.find? (·.start = start) = (searchStart? ranges start).bind (ranges[·]?) := by
  cases h : searchStart? ranges start with
  | some k =>
    obtain ⟨r, hk, rfl⟩ := (searchStart?_eq_some_iff hsorted).1 h
    obtain ⟨hlt, hr⟩ := List.getElem?_eq_some_iff.1 hk
    rw [Option.bind_some, hk, List.find?_eq_some_iff_getElem]
    refine ⟨decide_eq_true rfl, k, hlt, hr, fun j hj => ?_⟩
    simpa using (start_lt_of_lt hsorted (List.getElem?_eq_getElem _) hk hj).ne
  | none =>
    rw [Option.bind_none, List.find?_eq_none]
    intro r hr hstart
    obtain ⟨k, hk⟩ := List.getElem?_of_mem hr
    have := (searchStart?_eq_some_iff hsorted).2 ⟨r, hk, of_decide_eq_true hstart⟩
    rw [h] at this
    exact absurd this (by simp)

end Search

/-! ## Comments and strings of a source -/

/-- The ranges are the comments and strings of a source, as a reader of its bytes and a scan by an
index find them. -/
structure Scanned (source : List UInt8) (ranges : List ByteRange) : Prop where
  nonempty : ∀ r ∈ ranges, r.start < r.stop
  within : ∀ r ∈ ranges, r.stop ≤ source.length
  ordered : ranges.Pairwise fun r s => r.start < s.start ∧ r.stop ≤ s.start
  /-- One starts where a comment or a string opens at a byte that is read in code. -/
  starts : ∀ i, (∃ r ∈ ranges, r.start = i) ↔
    (readFrom .code source)[i]? = some .code ∧ Opens (source.drop i)
  /-- They hold the bytes that stand outside of code. -/
  covers : ∀ i, (∃ r ∈ ranges, r.holds i = true) ↔
    ∃ own, (zonesFrom .code source)[i]? = some own ∧ own ≠ .code
  /-- Where a block comment is read on, there is one to close. -/
  nested : ∀ i depth : Nat, (readFrom .code source)[i]? = some (.block depth) → 0 < depth
  no_underflow : ∀ n, Cursor.turns source n .initial ≠ .underflow
  ends : Cursor.turns source (source.length + 2 * ranges.length + 1) .initial = .done ranges
  /-- The search by halves finds a range where one starts. -/
  searched : ∀ start, (searchStart? ranges start).isSome = true ↔ ∃ r ∈ ranges, r.start = start
  /-- The range that it finds is the one from which a count of arguments goes on. -/
  found : ∀ start, (searchStart? ranges start).bind (ranges[·]?) =
    ranges.find? (·.start = start)

/-- The scan of a source ends with its comments and strings, whether they are closed or not: ranges
in order that keep apart, start where one opens in code and hold just the bytes that stand outside
of code. It never closes a block comment that is not open, and a search by halves finds the range
that starts at a byte if there is one. -/
theorem inertRanges_scanned (source : List UInt8) : Scanned source (inertRanges source) := by
  have hpairwise : (inertRanges source).Pairwise fun r s => r.start < s.start ∧ r.stop ≤ s.start :=
    pairwise_inertFrom 0 0 source
  have hsorted : (inertRanges source).Pairwise (·.start < ·.start) := hpairwise.imp And.left
  constructor
  case nonempty => exact fun r hr => (bounds_of_mem_inertFrom (z := .code) hr).1
  case within => exact fun r hr => by simpa using (bounds_of_mem_inertFrom (z := .code) hr).2
  case ordered => exact hpairwise
  case starts => exact fun i => by simpa [inertRanges] using @exists_start_iff 0 i .code source
  case covers => exact fun i => by simpa [inertRanges] using @covered_iff 0 i .code source
  case nested => exact fun i depth => depth_pos_of_readFrom (by simp)
  case no_underflow => exact turns_ne_underflow source
  case ends => exact turns_eq_done source
  case searched => exact fun start => isSome_searchStart?_iff hsorted
  case found => exact fun start => (find?_eq_searchStart? hsorted).symm

-- The second byte of a `/*` is not read again as the first one of a `*/`, and the backslash takes
-- the quote behind it along.
example : inertRanges (Text.bytes "a/*/b*/c\"\\\"d".toList) = [⟨1, 7⟩, ⟨8, 12⟩] := by decide

end LiveScene.Compiler
