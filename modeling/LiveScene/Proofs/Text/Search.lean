import LiveScene.Text.Search
import Mathlib.Data.List.Basic

/-!
# Searching a text piece by piece

`Matcher.EndsIn m before u v` says that no match of `m` that starts in `u`
goes on into the text `v` behind it. The search of `u ++ v` then comes to `v`
as if it began there (`searchFrom_append`): nothing in `u` can hide what
follows (`mem_searchFrom`). What is found is there in any case
(`exists_of_mem_searchFrom`).
-/

namespace LiveScene.Text

variable {α : Type} {m : Matcher α} {before : Option Char} {start : Nat}

/-- The text behind a list of characters stops a stretch that one of them does not belong to. -/
theorem takeWhile_append_cons {p : Char → Bool} {c : Char} (hc : p c = false)
    (u v : List Char) : (u ++ c :: v).takeWhile p = u.takeWhile p := by
  induction u with
  | nil => simp [hc]
  | cons d u ih =>
    by_cases hd : p d
    · simp [hd, ih]
    · simp [hd]

theorem dropWhile_append_cons {p : Char → Bool} {c : Char} (hc : p c = false)
    (u v : List Char) : (u ++ c :: v).dropWhile p = u.dropWhile p ++ c :: v := by
  induction u with
  | nil => simp [hc]
  | cons d u ih =>
    by_cases hd : p d
    · simp [hd, ih]
    · simp [hd]

/-- A text is as long as its first stretch and the rest. -/
theorem length_takeWhile_add_dropWhile (p : Char → Bool) (u : List Char) :
    (u.takeWhile p).length + (u.dropWhile p).length = u.length := by
  rw [← List.length_append, List.takeWhile_append_dropWhile]

/-- A stretch that ends within a text ends there whatever follows. -/
theorem takeWhile_append_of_dropWhile {p : Char → Bool} {u : List Char} (h : u.dropWhile p ≠ [])
    (v : List Char) :
    (u ++ v).takeWhile p = u.takeWhile p ∧ (u ++ v).dropWhile p = u.dropWhile p ++ v := by
  have hlen := length_takeWhile_add_dropWhile p u
  have hpos := List.length_pos_of_ne_nil h
  rw [List.takeWhile_append, if_neg (by omega), List.dropWhile_append, if_neg (by simpa using h)]
  exact ⟨rfl, rfl⟩

/-- The character before a text that comes behind `u`. -/
def lastOr (before : Option Char) (u : List Char) : Option Char := u.getLast?.or before

@[simp] theorem lastOr_nil (before : Option Char) : lastOr before [] = before := rfl

@[simp] theorem lastOr_cons (before : Option Char) (c : Char) (u : List Char) :
    lastOr before (c :: u) = lastOr (some c) u := by
  cases u with
  | nil => rfl
  | cons d u => simp [lastOr, List.getLast?_cons]

/-- No match that starts in `u` goes on into the text `v` behind it. -/
def Matcher.EndsIn (m : Matcher α) (before : Option Char) (u v : List Char) : Prop :=
  ∀ x y a n, u = x ++ y → y ≠ [] → m (lastOr before x) (y ++ v) = some (a, n) → n ≤ y.length

/-- What no match goes on into from a text, none does from the rest of it. -/
theorem Matcher.EndsIn.tail {c : Char} {u v : List Char} (h : m.EndsIn before (c :: u) v) :
    m.EndsIn (some c) u v := fun x y a n hu hy hm =>
  h (c :: x) y a n (by rw [hu]; rfl) hy (by rwa [lastOr_cons])

/-- A search goes on behind `u` as if it began there, if no match in `u` ends later. -/
theorem searchFrom_append (start : Nat) {u v : List Char} {skip : Nat}
    (h : m.EndsIn before u v) (hskip : skip ≤ u.length) :
    ∃ found, searchFrom m before start skip (u ++ v) =
      found ++ searchFrom m (lastOr before u) (start + byteLength u) 0 v := by
  induction u generalizing before start skip with
  | nil =>
    obtain rfl : skip = 0 := by simpa using hskip
    exact ⟨[], by simp [byteLength]⟩
  | cons c u ih =>
    have hlen : start + byteLength (c :: u) = start + c.utf8Size + byteLength u := by
      simp [byteLength, Nat.add_assoc]
    rw [hlen, lastOr_cons, List.cons_append]
    match skip with
    | k + 1 =>
      rw [searchFrom]
      exact ih _ h.tail (by simpa using hskip)
    | 0 =>
      rw [searchFrom]
      split
      · rename_i a n hm
        have hn := h [] (c :: u) a n rfl (by simp) hm
        have hleft : n - 1 ≤ u.length := by
          simp at hn
          omega
        obtain ⟨found, hfound⟩ := ih (start + c.utf8Size) h.tail hleft
        exact ⟨(start, a) :: found, by rw [hfound]; rfl⟩
      · exact ih _ h.tail (Nat.zero_le _)

/-- A match that no earlier one reaches into is found. -/
theorem mem_searchFrom (start : Nat) {u v : List Char} {a : α} {n : Nat}
    (h : m.EndsIn before u v) (hm : m (lastOr before u) v = some (a, n)) (hv : v ≠ []) :
    (start + byteLength u, a) ∈ searchFrom m before start 0 (u ++ v) := by
  obtain ⟨found, hfound⟩ := searchFrom_append start h (Nat.zero_le _)
  obtain ⟨c, v, rfl⟩ := List.exists_cons_of_ne_nil hv
  rw [hfound, searchFrom, hm]
  simp

/-- Whatever a search finds is a match at the place where it is found. -/
theorem exists_of_mem_searchFrom {cs : List Char} {skip i : Nat} {a : α}
    (h : (i, a) ∈ searchFrom m before start skip cs) :
    ∃ u v n, cs = u ++ v ∧ i = start + byteLength u ∧ m (lastOr before u) v = some (a, n) := by
  induction cs generalizing before start skip with
  | nil => cases h
  | cons c cs ih =>
    have hlater : ∀ k, (i, a) ∈ searchFrom m (some c) (start + c.utf8Size) k cs →
        ∃ u v n, c :: cs = u ++ v ∧ i = start + byteLength u ∧
          m (lastOr before u) v = some (a, n) := by
      intro k hk
      obtain ⟨u, v, n, rfl, rfl, hm⟩ := ih hk
      exact ⟨c :: u, v, n, rfl, by simp [byteLength, Nat.add_assoc], by rwa [lastOr_cons]⟩
    match skip with
    | k + 1 => exact hlater k h
    | 0 =>
      rw [searchFrom] at h
      split at h
      · rename_i b n hm
        rcases List.mem_cons.1 h with heq | h
        · obtain ⟨rfl, rfl⟩ := Prod.mk.inj heq
          exact ⟨[], c :: cs, n, rfl, rfl, hm⟩
        · exact hlater (n - 1) h
      · exact hlater 0 h

/-- A match that reaches to the end of the text is the only one. -/
theorem searchFrom_of_whole {cs : List Char} {a : α} {n : Nat} (hm : m before cs = some (a, n))
    (hcs : cs ≠ []) (hn : cs.length ≤ n) : searchFrom m before start 0 cs = [(start, a)] := by
  cases cs with
  | nil => exact (hcs rfl).elim
  | cons c cs =>
    have hskip : ∀ (cs : List Char) (before : Option Char) (start k : Nat),
        cs.length ≤ k → searchFrom m before start k cs = [] := by
      intro cs
      induction cs with
      | nil => exact fun _ _ _ _ => rfl
      | cons d cs ih =>
        intro before start k hk
        match k with
        | k + 1 => exact ih _ _ _ (by simpa using hk)
    rw [searchFrom, hm]
    simp only [List.length_cons] at hn
    simp [hskip cs _ _ (n - 1) (by omega)]

end LiveScene.Text
