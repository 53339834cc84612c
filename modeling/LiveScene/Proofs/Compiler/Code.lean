import LiveScene.Compiler.ModuleCheck
import LiveScene.Proofs.Text.Lines
import LiveScene.Proofs.Text.Search

/-!
# What stands in code

`codeAt` says of each character whether it stands outside of comments and
strings. The ranges of a source are found byte by byte from left to right, but
at a character in code the search is as at the start of a text
(`exists_inertRanges_append`). So a double quote that only plain characters
lead to from there opens a string, and what stands in it up to the next double
quote is not code (`codeAt_literal`).
-/

namespace LiveScene.Compiler

open Text

/-! ## Plain characters -/

/-- The characters that comments and strings open with. -/
def openers : List Char := ['"', '\x60', '\x27', '/']

/-- A character that opens no comment and no string. -/
def IsPlain (c : Char) : Prop := c ∉ openers

/-- Characters of a kind that no opener is of are plain. -/
theorem isPlain_of_all {p : Char → Bool} (hp : openers.all (!p ·) = true) {c : Char}
    (hc : p c = true) : IsPlain c := by
  intro h
  have := List.all_eq_true.1 hp c h
  simp [hc] at this

/-- No byte of a plain character opens a comment or a string. -/
theorem inertLength?_eq_none {c : Char} (hc : IsPlain c) {b : UInt8}
    (hb : b ∈ String.utf8EncodeChar c) (bs : List UInt8) : inertLength? (b :: bs) = none := by
  have hascii : openers.all (·.toNat < 128) = true := by decide
  have hne : ∀ a ∈ openers, b ≠ byte a := by
    rintro a ha rfl
    have hlt : a.toNat < 128 := by simpa using List.all_eq_true.1 hascii a ha
    exact hc (eq_of_byte_mem hlt hb ▸ ha)
  simp only [openers, List.mem_cons, List.not_mem_nil, or_false, forall_eq_or_imp, forall_eq] at hne
  simp [inertLength?, isQuote, hne]

/-! ## Ranges from a place in code on -/

variable {start skip : Nat} {u v w : List UInt8}

/-- No range starts in front of the text or among the bytes that belong to the stretch found
last. -/
theorem start_le_of_mem_inertFrom {r : ByteRange} (h : r ∈ inertFrom start skip u) :
    start + skip ≤ r.start := by
  induction u generalizing start skip with
  | nil => simp [inertFrom] at h
  | cons b u ih =>
    cases skip with
    | succ k =>
      have := ih h
      omega
    | zero =>
      rw [inertFrom] at h
      split at h
      · rcases List.mem_cons.1 h with rfl | h
        · exact Nat.le_refl _
        · have := ih h
          omega
      · have := ih h
        omega

/-- The search for ranges goes on behind `u` in the range found last, or else anew. -/
theorem exists_inertFrom_append (start skip : Nat) (u v : List UInt8) :
    ∃ found left, inertFrom start skip (u ++ v) = found ++ inertFrom (start + u.length) left v ∧
      (∀ r ∈ found, r.start < start + u.length) ∧
      (left = 0 ∨ skip = u.length + left ∨ ∃ r ∈ found, r.stop = start + u.length + left) := by
  induction u generalizing start skip with
  | nil => exact ⟨[], skip, by simp, by simp, by simp⟩
  | cons b u ih =>
    have hlen : start + (b :: u).length = start + 1 + u.length := by simp; omega
    rw [hlen, List.cons_append]
    match skip with
    | k + 1 =>
      obtain ⟨found, left, heq, hstart, hleft⟩ := ih (start + 1) k
      refine ⟨found, left, heq, hstart, ?_⟩
      rcases hleft with h0 | hk | hr
      · exact .inl h0
      · exact .inr (.inl (by simp; omega))
      · exact .inr (.inr hr)
    | 0 =>
      rw [inertFrom]
      split
      · rename_i n _
        obtain ⟨found, left, heq, hstart, hleft⟩ := ih (start + 1) (n - 1)
        refine ⟨⟨start, start + n⟩ :: found, left, by rw [heq]; rfl, ?_, ?_⟩
        · intro r hr
          rcases List.mem_cons.1 hr with rfl | hr
          · simp; omega
          · exact hstart r hr
        · rcases hleft with h0 | hn | ⟨r, hr, hstop⟩
          · exact .inl h0
          · by_cases h0 : left = 0
            · exact .inl h0
            · exact .inr (.inr ⟨⟨start, start + n⟩, by simp, by simp; omega⟩)
          · exact .inr (.inr ⟨r, by simp [hr], hstop⟩)
      · obtain ⟨found, left, heq, hstart, hleft⟩ := ih (start + 1) 0
        refine ⟨found, left, heq, hstart, ?_⟩
        rcases hleft with h0 | hn | hr
        · exact .inl h0
        · exact .inl (by omega)
        · exact .inr (.inr hr)

/-- At a byte in code the search for ranges begins anew. -/
theorem exists_inertRanges_append (h : isCode (inertRanges (u ++ v)) u.length = true) :
    ∃ found, inertRanges (u ++ v) = found ++ inertFrom u.length 0 v ∧
      ∀ r ∈ found, r.start < u.length := by
  obtain ⟨found, left, heq, hstart, hleft⟩ := exists_inertFrom_append 0 0 u v
  rw [Nat.zero_add] at heq hstart hleft
  refine ⟨found, ?_, hstart⟩
  rw [inertRanges] at h ⊢
  suffices left = 0 by rw [heq, this]
  rcases hleft with h0 | hskip | ⟨r, hr, hstop⟩
  · exact h0
  · omega
  · by_contra hne
    rw [heq, isCode, Bool.not_eq_true', List.any_eq_false] at h
    have := hstart r hr
    exact h r (by simp [hr]) (by simp [ByteRange.holds]; omega)

/-- No range starts among plain characters. -/
theorem inertFrom_of_plain {cs : List Char} (hcs : ∀ c ∈ cs, IsPlain c) :
    inertFrom start 0 (bytes cs ++ v) = inertFrom (start + byteLength cs) 0 v := by
  have hmem : ∀ b ∈ bytes cs, ∀ bs, inertLength? (b :: bs) = none := by
    intro b hb bs
    obtain ⟨c, hc, hbc⟩ := List.mem_flatMap.1 hb
    exact inertLength?_eq_none (hcs c hc) hbc bs
  rw [← length_bytes]
  generalize bytes cs = w at hmem
  induction w generalizing start with
  | nil => rfl
  | cons b w ih =>
    rw [List.cons_append, inertFrom, hmem b (by simp),
      ih fun b hb => hmem b (by simp [hb])]
    simp [Nat.add_assoc, Nat.add_comm 1]

/-- A string reaches at least up to the first quote of its kind. -/
theorem length_lt_quotedLength (quote : UInt8) (t : List UInt8) :
    ∀ {w : List UInt8}, quote ∉ w → w.length < quotedLength quote (w ++ quote :: t)
  | [], _ => by cases t <;> simp [quotedLength]
  | [a], hw => by
    have ha : a ≠ quote := fun h => hw (by simp [h])
    have ih := length_lt_quotedLength quote t (w := []) (by simp)
    simp only [List.nil_append, List.length_nil] at ih
    simp only [List.cons_append, List.nil_append, quotedLength, ha, if_false, List.length_singleton]
    split_ifs <;> omega
  | a :: b :: w, hw => by
    have ha : a ≠ quote := fun h => hw (by simp [h])
    have ih := length_lt_quotedLength quote t (w := b :: w) fun h => hw (List.mem_cons_of_mem a h)
    have ih' := length_lt_quotedLength quote t (w := w) fun h =>
      hw (List.mem_cons_of_mem a (List.mem_cons_of_mem b h))
    simp only [List.cons_append, quotedLength, ha, if_false, List.length_cons] at ih ih' ⊢
    split_ifs <;> omega

/-! ## Characters in code -/

/-- Whether the character of an index stands outside of comments and strings. -/
def codeAt (source : List Char) (i : Nat) : Bool :=
  isCode (inertRanges (bytes source)) (byteLength (source.take i))

/-- The range of a string that plain characters lead to from a place in code. -/
theorem mem_inertRanges_of_quote {x lead rest : List Char}
    (hcode : codeAt (x ++ (lead ++ '"' :: rest)) x.length = true)
    (hlead : ∀ c ∈ lead, IsPlain c) :
    (⟨byteLength (x ++ lead), byteLength (x ++ lead) + (1 + quotedLength (byte '"') (bytes rest))⟩ :
      ByteRange) ∈ inertRanges (bytes (x ++ (lead ++ '"' :: rest))) := by
  have hquote : bytes ('"' :: rest) = byte '"' :: bytes rest := by rw [bytes_cons]; rfl
  rw [codeAt, List.take_left, bytes_append, ← length_bytes] at hcode
  obtain ⟨found, heq, -⟩ := exists_inertRanges_append hcode
  rw [bytes_append, heq, bytes_append, inertFrom_of_plain hlead, hquote, inertFrom,
    length_bytes, byteLength_append]
  simp [inertLength?, isQuote]

/-- What stands behind a double quote that plain characters lead to from a place in code, up
to the next double quote, is not code. -/
theorem codeAt_literal {x lead y z tail : List Char}
    (hcode : codeAt (x ++ (lead ++ '"' :: (y ++ (z ++ '"' :: tail)))) x.length = true)
    (hlead : ∀ c ∈ lead, IsPlain c) (hname : '"' ∉ y ++ z) :
    codeAt (x ++ (lead ++ '"' :: (y ++ (z ++ '"' :: tail))))
      (x ++ (lead ++ '"' :: y)).length = false := by
  have hmem := mem_inertRanges_of_quote hcode hlead
  have htake : (x ++ (lead ++ '"' :: (y ++ (z ++ '"' :: tail)))).take
      (x ++ (lead ++ '"' :: y)).length = x ++ (lead ++ '"' :: y) := by
    rw [show x ++ (lead ++ '"' :: (y ++ (z ++ '"' :: tail))) =
      (x ++ (lead ++ '"' :: y)) ++ (z ++ '"' :: tail) by simp, List.take_left]
  have hquote : byte '"' ∉ bytes (y ++ z) := by
    intro h
    obtain ⟨c, hc, hb⟩ := List.mem_flatMap.1 h
    exact hname (eq_of_byte_mem (by decide +kernel) hb ▸ hc)
  have hlt : byteLength (y ++ z) < quotedLength (byte '"') (bytes (y ++ (z ++ '"' :: tail))) := by
    have := length_lt_quotedLength _ (bytes tail) hquote
    rw [length_bytes] at this
    rwa [← List.append_assoc, bytes_append (y ++ z), bytes_cons]
  rw [codeAt, htake, isCode, Bool.not_eq_false', List.any_eq_true]
  refine ⟨_, hmem, ?_⟩
  have hone : '"'.utf8Size = 1 := rfl
  simp only [byteLength_append, byteLength, hone, ByteRange.holds, Bool.and_eq_true,
    decide_eq_true_eq] at hlt ⊢
  omega

end LiveScene.Compiler
