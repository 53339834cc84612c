import LiveScene.Proofs.Compiler.Code

/-!
# Comments and strings byte by byte

A reader that takes one byte after the other, and looks at no more than the
byte behind it, is always in one of few zones: in code, in a comment up to the
end of the line, in a block comment inside of so many open ones, in a string,
or at a byte that a backslash in a string takes along. `Zone.read` is the table
of this automaton.

What is still to come of a zone is as long as the functions that measure
comments and strings say (`left_cons`). So at each byte the search for ranges
either adds one or goes on (`inertFrom_of_opens`, `inertFrom_of_not_opens`), and
what one wants to know of the ranges follows byte by byte: where they start
(`exists_start_iff`), which bytes they hold (`covered_iff`), and that each ends
before the next one starts (`pairwise_inertFrom`).
-/

namespace LiveScene.Compiler

/-- Where a byte of a source stands, or where the next one is read. -/
inductive Zone where
  | code
  /-- In a comment up to the end of the line. -/
  | line
  /-- In a block comment, inside of `depth` open ones. -/
  | block (depth : Nat)
  /-- At the second byte of a `/*` or `*/` in a block comment, which is not read again. Behind it
  `depth` comments are open. -/
  | mark (depth : Nat)
  /-- In a string up to the quote that opened it. -/
  | string (quote : UInt8)
  /-- At the byte behind a backslash in a string. -/
  | escaped (quote : UInt8)
  deriving DecidableEq, Repr

/-- A byte that was read: the zone it stands in, and the zone in which the next one is read. -/
structure Reading where
  own : Zone
  next : Zone
  deriving DecidableEq, Repr

namespace Zone

/-- Read a byte in a zone, with a look at the one behind it. The bytes that open and close a comment
or a string stand in it; the end of a line is code. -/
def read : Zone → UInt8 → Option UInt8 → Reading
  | code, b, ahead =>
    if isQuote b then ⟨string b, string b⟩
    else if b = byte '/' ∧ ahead = some (byte '/') then ⟨line, line⟩
    else if b = byte '/' ∧ ahead = some (byte '*') then ⟨block 1, mark 1⟩
    else ⟨code, code⟩
  | line, b, _ => if b = byte '\n' then ⟨code, code⟩ else ⟨line, line⟩
  | block depth, b, ahead =>
    if b = byte '/' ∧ ahead = some (byte '*') then ⟨block depth, mark (depth + 1)⟩
    else if b = byte '*' ∧ ahead = some (byte '/') then ⟨block depth, mark (depth - 1)⟩
    else ⟨block depth, block depth⟩
  | mark depth, _, _ => ⟨mark depth, if depth = 0 then code else block depth⟩
  | string quote, b, _ =>
    if b = quote then ⟨string quote, code⟩
    else if b = byte '\\' then ⟨string quote, escaped quote⟩
    else ⟨string quote, string quote⟩
  | escaped quote, _, _ => ⟨escaped quote, string quote⟩

/-- The bytes of a text that belong to what is open in a zone. -/
def left : Zone → List UInt8 → Nat
  | code, _ => 0
  | line, bs => lineCommentLength bs
  | block depth, bs => blockCommentLength depth bs
  | mark _, [] => 0
  | mark depth, _ :: bs => 1 + if depth = 0 then 0 else blockCommentLength depth bs
  | string quote, bs => quotedLength quote bs
  | escaped _, [] => 0
  | escaped quote, _ :: bs => 1 + quotedLength quote bs

end Zone

/-- The zones in which the bytes of a text are read, from a first one on. -/
def readFrom (z : Zone) : List UInt8 → List Zone
  | [] => []
  | b :: bs => z :: readFrom (z.read b bs.head?).next bs

/-- The zones in which the bytes of a text stand that is read in a zone. -/
def zonesFrom (z : Zone) : List UInt8 → List Zone
  | [] => []
  | b :: bs => (z.read b bs.head?).own :: zonesFrom (z.read b bs.head?).next bs

/-- What a comment or a string starts with. -/
inductive Opens : List UInt8 → Prop
  | quote {b : UInt8} (h : isQuote b = true) (bs : List UInt8) : Opens (b :: bs)
  | line (bs : List UInt8) : Opens (byte '/' :: byte '/' :: bs)
  | block (bs : List UInt8) : Opens (byte '/' :: byte '*' :: bs)

/-! ## What is left of a zone -/

namespace Zone

variable {z : Zone} {b : UInt8} {bs : List UInt8}

@[simp] theorem left_code (bs : List UInt8) : code.left bs = 0 := rfl

@[simp] theorem left_nil (z : Zone) : z.left [] = 0 := by cases z <;> rfl

/-- A byte of code is read in code, or it is the end of a line. -/
theorem of_own_code {ahead : Option UInt8} (h : (z.read b ahead).own = code) :
    (z.read b ahead).next = code ∧ (z = code ∨ z = line ∧ b = byte '\n') := by
  cases z with
  | code =>
    rw [read] at h ⊢
    split_ifs at h ⊢
    exact ⟨rfl, .inl rfl⟩
  | line =>
    rw [read] at h ⊢
    split_ifs at h ⊢ with hb
    exact ⟨rfl, .inr ⟨rfl, hb⟩⟩
  | block depth => simp only [read] at h; split_ifs at h
  | mark depth => simp [read] at h
  | string quote => simp only [read] at h; split_ifs at h
  | escaped quote => simp [read] at h

/-- Nothing is left of a zone that a byte in code has ended. -/
theorem left_of_own_code (h : (z.read b bs.head?).own = code) : z.left (b :: bs) = 0 := by
  obtain ⟨-, rfl | ⟨rfl, rfl⟩⟩ := of_own_code h
  · rfl
  · simp [left, lineCommentLength]

/-- A comment goes on up to the end of its line. -/
theorem left_line (hb : b ≠ byte '\n') : line.left (b :: bs) = 1 + line.left bs := by
  simp [left, lineCommentLength, hb, Nat.add_comm]

/-- What is left of a block comment, one byte on. -/
theorem left_block (depth : Nat) (b : UInt8) (bs : List UInt8) :
    (block depth).left (b :: bs) = 1 + ((block depth).read b bs.head?).next.left bs := by
  cases bs with
  | nil => rw [left_nil]; rfl
  | cons c cs =>
    simp only [read, List.head?_cons, Option.some.injEq]
    rw [left, blockCommentLength]
    split_ifs with hopen hclose hlast
    · rw [left, if_neg (Nat.succ_ne_zero depth)]
      omega
    · rw [left, if_pos (by omega)]
    · rw [left, if_neg (by omega)]
      omega
    · rfl

/-- What is left of a string, one byte on. -/
theorem left_string (quote b : UInt8) (bs : List UInt8) :
    (string quote).left (b :: bs) = 1 + ((string quote).read b bs.head?).next.left bs := by
  cases bs with
  | nil => rw [left_nil]; rfl
  | cons c cs =>
    simp only [read]
    rw [left, quotedLength]
    split_ifs with hclose hescape
    · rfl
    · rw [left]
      omega
    · rfl

/-- A byte of a comment or a string is the first of those that are left. -/
theorem left_cons (hz : z ≠ code) (h : (z.read b bs.head?).own ≠ code) :
    z.left (b :: bs) = 1 + (z.read b bs.head?).next.left bs := by
  cases z with
  | code => exact absurd rfl hz
  | line =>
    have hb : b ≠ byte '\n' := fun hb => h (by simp [read, hb])
    rw [left_line hb]
    simp [read, hb]
  | block depth => exact left_block depth b bs
  | mark depth =>
    simp only [left, read]
    split_ifs <;> rfl
  | string quote => exact left_string quote b bs
  | escaped quote => rfl

/-- A zone ends with the text at the latest. -/
theorem left_le_length (z : Zone) (bs : List UInt8) : z.left bs ≤ bs.length := by
  induction bs generalizing z with
  | nil => simp
  | cons b bs ih =>
    by_cases hz : z = code
    · simp [hz]
    · by_cases h : (z.read b bs.head?).own = code
      · simp [left_of_own_code h]
      · rw [left_cons hz h, List.length_cons, Nat.add_comm]
        exact Nat.succ_le_succ (ih _)

end Zone

/-- A block comment that is read on is inside of at least one open one, so that `*/` always closes
one. -/
theorem Zone.next_depth_pos {z : Zone} {depth : Nat} (hz : ∀ d, z = .block d → 0 < d) {b : UInt8}
    {ahead : Option UInt8} (h : (z.read b ahead).next = .block depth) : 0 < depth := by
  cases z with
  | code => rw [Zone.read] at h; split_ifs at h
  | line => rw [Zone.read] at h; split_ifs at h
  | block d =>
    rw [Zone.read] at h
    split_ifs at h
    obtain rfl : d = depth := by simpa using h
    exact hz d rfl
  | mark d =>
    simp only [Zone.read] at h
    split_ifs at h with hd
    obtain rfl : d = depth := by simpa using h
    exact Nat.pos_of_ne_zero hd
  | string quote => rw [Zone.read] at h; split_ifs at h
  | escaped quote => simp [Zone.read] at h

/-- A byte in a block comment is inside of at least one. -/
theorem depth_pos_of_readFrom {z : Zone} {bs : List UInt8} {i depth : Nat}
    (hz : ∀ d, z = .block d → 0 < d) (h : (readFrom z bs)[i]? = some (.block depth)) :
    0 < depth := by
  induction bs generalizing z i with
  | nil => simp [readFrom] at h
  | cons b bs ih =>
    cases i with
    | zero => exact hz depth (by simpa [readFrom] using h)
    | succ i => exact ih (fun d => Zone.next_depth_pos hz) (by simpa [readFrom] using h)

/-! ## What opens in code -/

section Opening

variable {b : UInt8} {bs : List UInt8}

/-- A byte opens something where it is read in code and does not stand there. -/
theorem opens_iff : Opens (b :: bs) ↔ (Zone.code.read b bs.head?).own ≠ .code := by
  constructor
  · intro h
    cases h with
    | quote h => simp [Zone.read, h]
    | line bs => simp +decide [Zone.read]
    | block bs => simp +decide [Zone.read]
  · intro h
    simp only [Zone.read] at h
    split_ifs at h with hquote hline hblock
    · exact .quote hquote bs
    · obtain ⟨rfl, hline⟩ := hline
      obtain ⟨rest, rfl⟩ := List.head?_eq_some_iff.1 hline
      exact .line rest
    · obtain ⟨rfl, hblock⟩ := hblock
      obtain ⟨rest, rfl⟩ := List.head?_eq_some_iff.1 hblock
      exact .block rest
    · exact absurd rfl h

/-- A byte that is read as code opens nothing. -/
theorem inertLength?_of_own_code {z : Zone} (h : (z.read b bs.head?).own = .code) :
    inertLength? (b :: bs) = none := by
  obtain ⟨-, rfl | ⟨rfl, rfl⟩⟩ := Zone.of_own_code h
  · simp only [Zone.read] at h
    simp only [inertLength?]
    split_ifs at h ⊢
    rfl
  · rfl

/-- What opens at a byte is that byte and what is left behind it. -/
theorem inertLength?_of_opens (h : Opens (b :: bs)) :
    inertLength? (b :: bs) = some (1 + (Zone.code.read b bs.head?).next.left bs) := by
  cases h with
  | quote h => simp [inertLength?, Zone.read, Zone.left, h]
  | line bs =>
    have hslash : byte '/' ≠ byte '\n' := by decide
    have hnext : (Zone.code.read (byte '/') (byte '/' :: bs).head?).next = .line := by rfl
    rw [hnext, ← Zone.left_line hslash]
    rfl
  | block bs =>
    have hnext : (Zone.code.read (byte '/') (byte '*' :: bs).head?).next = .mark 1 := by rfl
    have hlength : blockCommentLength 0 (byte '/' :: byte '*' :: bs) =
        1 + (1 + blockCommentLength 1 bs) := by
      simp [blockCommentLength, ← Nat.add_assoc]
    rw [hnext, Zone.left, if_neg Nat.one_ne_zero, ← hlength]
    rfl

end Opening

/-! ## The ranges from a zone on -/

variable {start i : Nat} {z : Zone} {b : UInt8} {bs : List UInt8}

/-- What opens in code adds a range. -/
theorem inertFrom_of_opens (start : Nat) (h : Opens (b :: bs)) :
    inertFrom start 0 (b :: bs) =
      ⟨start, start + 1 + (Zone.code.read b bs.head?).next.left bs⟩ ::
        inertFrom (start + 1) ((Zone.code.read b bs.head?).next.left bs) bs := by
  rw [inertFrom, inertLength?_of_opens h]
  simp [Nat.add_assoc]

/-- A byte that opens nothing and does not stand in code is the first of those that are left. -/
theorem left_of_not_opens (h : z = .code → ¬ Opens (b :: bs))
    (hown : (z.read b bs.head?).own ≠ .code) :
    z.left (b :: bs) = 1 + (z.read b bs.head?).next.left bs :=
  Zone.left_cons (fun hz => h hz (opens_iff.2 (hz ▸ hown))) hown

/-- A byte that opens nothing adds none. -/
theorem inertFrom_of_not_opens (start : Nat) (h : z = .code → ¬ Opens (b :: bs)) :
    inertFrom start (z.left (b :: bs)) (b :: bs) =
      inertFrom (start + 1) ((z.read b bs.head?).next.left bs) bs := by
  by_cases hown : (z.read b bs.head?).own = .code
  · rw [Zone.left_of_own_code hown, (Zone.of_own_code hown).1, inertFrom,
      inertLength?_of_own_code hown]
    rfl
  · rw [left_of_not_opens h hown, Nat.add_comm 1, inertFrom]

/-- Where a byte opens nothing, what is left of the zone starts with it unless it is of code. -/
theorem left_pos_iff (h : z = .code → ¬ Opens (b :: bs)) :
    0 < z.left (b :: bs) ↔ (z.read b bs.head?).own ≠ .code := by
  constructor
  · intro hpos hown
    rw [Zone.left_of_own_code hown] at hpos
    exact Nat.lt_irrefl 0 hpos
  · intro hown
    rw [left_of_not_opens h hown]
    omega

/-- A zone holds a byte if what is left of it behind the first one does. -/
theorem succ_lt_left_iff (h : z = .code → ¬ Opens (b :: bs)) :
    i + 1 < z.left (b :: bs) ↔ i < (z.read b bs.head?).next.left bs := by
  by_cases hown : (z.read b bs.head?).own = .code
  · simp [Zone.left_of_own_code hown, (Zone.of_own_code hown).1]
  · rw [left_of_not_opens h hown]
    omega

/-- Ranges are in order, and each ends before the next one starts. -/
theorem pairwise_inertFrom (start skip : Nat) (bs : List UInt8) :
    (inertFrom start skip bs).Pairwise fun r s => r.start < s.start ∧ r.stop ≤ s.start := by
  induction bs generalizing start skip with
  | nil => exact .nil
  | cons b bs ih =>
    cases skip with
    | succ k => exact ih (start + 1) k
    | zero =>
      rw [inertFrom]
      split
      · rename_i n _
        refine List.pairwise_cons.2 ⟨fun s hs => ?_, ih (start + 1) (n - 1)⟩
        have := start_le_of_mem_inertFrom hs
        dsimp only
        omega
      · exact ih (start + 1) 0

/-- A range holds at least the byte that opens it, and ends with the text at the latest. -/
theorem bounds_of_mem_inertFrom {r : ByteRange} (hr : r ∈ inertFrom start (z.left bs) bs) :
    r.start < r.stop ∧ r.stop ≤ start + bs.length := by
  induction bs generalizing start z with
  | nil => simp [inertFrom] at hr
  | cons b bs ih =>
    rw [List.length_cons]
    by_cases h : z = .code ∧ Opens (b :: bs)
    · obtain ⟨rfl, h⟩ := h
      rw [Zone.left_code, inertFrom_of_opens start h] at hr
      rcases List.mem_cons.1 hr with rfl | hr
      · have := (Zone.code.read b bs.head?).next.left_le_length bs
        dsimp only
        omega
      · have := ih hr
        omega
    · rw [inertFrom_of_not_opens start (not_and.1 h)] at hr
      have := ih hr
      omega

/-- A range starts at a byte where a comment or a string opens in code, and nowhere else. -/
theorem exists_start_iff : (∃ r ∈ inertFrom start (z.left bs) bs, r.start = start + i) ↔
    (readFrom z bs)[i]? = some .code ∧ Opens (bs.drop i) := by
  induction bs generalizing start z i with
  | nil => simp [inertFrom, readFrom]
  | cons b bs ih =>
    -- The ranges of the rest start behind the byte.
    have hrest : ¬ ∃ r ∈ inertFrom (start + 1) ((z.read b bs.head?).next.left bs) bs,
        r.start = start + 0 := by
      rintro ⟨r, hr, hstart⟩
      have := start_le_of_mem_inertFrom hr
      omega
    have ih := fun i => @ih (start + 1) i (z.read b bs.head?).next
    by_cases h : z = .code ∧ Opens (b :: bs)
    · obtain ⟨rfl, h⟩ := h
      rw [Zone.left_code, inertFrom_of_opens start h]
      cases i with
      | zero => simp [readFrom, h]
      | succ i => simpa [readFrom, Nat.add_assoc, Nat.add_comm 1] using ih i
    · rw [inertFrom_of_not_opens start (not_and.1 h)]
      cases i with
      | zero => simpa [readFrom, h] using hrest
      | succ i => simpa [readFrom, Nat.add_assoc, Nat.add_comm 1] using ih i

theorem holds_add (start n i : Nat) :
    (⟨start, start + 1 + n⟩ : ByteRange).holds (start + i) = true ↔ i < n + 1 := by
  simp only [ByteRange.holds, Bool.and_eq_true, decide_eq_true_eq]
  omega

/-- The bytes that stand outside of code are those of the ranges, and those that are left of the
zone at first. -/
theorem covered_iff :
    (i < z.left bs ∨ ∃ r ∈ inertFrom start (z.left bs) bs, r.holds (start + i) = true) ↔
      ∃ own, (zonesFrom z bs)[i]? = some own ∧ own ≠ .code := by
  induction bs generalizing start z i with
  | nil => simp [inertFrom, zonesFrom]
  | cons b bs ih =>
    have hrest : ¬ ∃ r ∈ inertFrom (start + 1) ((z.read b bs.head?).next.left bs) bs,
        r.holds (start + 0) = true := by
      rintro ⟨r, hr, hholds⟩
      have := start_le_of_mem_inertFrom hr
      simp only [ByteRange.holds, Bool.and_eq_true, decide_eq_true_eq] at hholds
      omega
    have ih := fun i => @ih (start + 1) i (z.read b bs.head?).next
    by_cases h : z = .code ∧ Opens (b :: bs)
    · obtain ⟨rfl, h⟩ := h
      rw [Zone.left_code, inertFrom_of_opens start h, List.exists_mem_cons_iff, holds_add]
      cases i with
      | zero => simp [zonesFrom, opens_iff.1 h]
      | succ i => simpa [zonesFrom, Nat.add_assoc, Nat.add_comm 1] using ih i
    · rw [inertFrom_of_not_opens start (not_and.1 h)]
      cases i with
      | zero =>
        rw [left_pos_iff (not_and.1 h), or_iff_left hrest]
        simp [zonesFrom]
      | succ i =>
        rw [succ_lt_left_iff (not_and.1 h)]
        simpa [zonesFrom, Nat.add_assoc, Nat.add_comm 1] using ih i

end LiveScene.Compiler
