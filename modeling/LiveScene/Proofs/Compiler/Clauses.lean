import LiveScene.Compiler.ModuleCheck
import LiveScene.Proofs.Text.Search
import Mathlib.Data.List.TakeWhile

/-!
# The text of imports and of members

What the matchers of the check of modules stand for. `importText` is an import
up to the closing quote, `asText` the alias behind it, and `useText` the use of
a member; the matchers find these texts (`importClause_importText`,
`aliasClause?_asText`, `memberUse_useText`) and nothing else
(`importClause_eq_some`, `aliasClause?_eq_some`, `memberUse_eq_some`).
-/

namespace LiveScene.Compiler

open Text

/-! ## Names -/

/-- The characters of names are ASCII, from the digits on. -/
theorem toNat_of_continuesName {c : Char} (h : continuesName c = true) :
    48 ≤ c.toNat ∧ c.toNat < 0x80 := by
  have hkinds : continuesName c = (((decide (c.val ≥ 'A'.val ∧ c.val ≤ 'Z'.val) ||
      (decide (c.val ≥ 'a'.val) && decide (c.val ≤ 'z'.val))) ||
      (decide (c.val ≥ '0'.val) && decide (c.val ≤ '9'.val))) || decide (c = '_')) := rfl
  simp only [hkinds, Bool.or_eq_true, Bool.and_eq_true, decide_eq_true_eq,
    UInt32.le_iff_toNat_le, ge_iff_le] at h
  have hA : 'A'.val.toNat = 65 := rfl
  have hZ : 'Z'.val.toNat = 90 := rfl
  have ha : 'a'.val.toNat = 97 := rfl
  have hz : 'z'.val.toNat = 122 := rfl
  have h0 : '0'.val.toNat = 48 := rfl
  have h9 : '9'.val.toNat = 57 := rfl
  have hc : c.toNat = c.val.toNat := rfl
  rcases h with h | rfl
  · omega
  · decide

/-- The characters of names are those of words. -/
theorem isWord_of_continuesName {c : Char} (h : continuesName c = true) : isWord c = true := by
  rw [isWord, if_pos (toNat_of_continuesName h).2]
  exact h

/-- A name holds no white space. -/
theorem isSpace_of_continuesName {c : Char} (h : continuesName c = true) : isSpace c = false := by
  have := toNat_of_continuesName h
  simp [isSpace]
  omega

theorem continuesName_of_startsName {c : Char} (h : startsName c = true) :
    continuesName c = true := by
  rw [startsName, Bool.or_eq_true] at h
  rw [continuesName, Bool.or_eq_true]
  exact h.imp (fun h => (Bool.or_eq_true ..).mpr (.inl h)) id

/-- A letter or an underscore, and then letters, digits and underscores. -/
structure IsName (cs : List Char) : Prop where
  starts : ∃ c ∈ cs.head?, startsName c = true
  continues : ∀ c ∈ cs, continuesName c = true

instance (cs : List Char) : Decidable (IsName cs) :=
  decidable_of_iff (cs.head?.any startsName = true ∧ cs.all continuesName = true)
    ⟨fun h => ⟨(Option.any_eq_true ..).1 h.1, List.all_eq_true.1 h.2⟩,
      fun h => ⟨(Option.any_eq_true ..).2 h.starts, List.all_eq_true.2 h.continues⟩⟩

/-- A text that does not go on with a name. -/
def EndsName (rest : List Char) : Prop := ∀ c ∈ rest.head?, continuesName c = false

instance (rest : List Char) : Decidable (EndsName rest) :=
  decidable_of_iff (rest.head?.all (!continuesName ·) = true) (by cases rest <;> simp [EndsName])

/-- A name has a first character, which is not white space. -/
theorem IsName.exists_cons {name : List Char} (hn : IsName name) :
    ∃ c cs, name = c :: cs ∧ isSpace c = false := by
  obtain ⟨c, hc, hstarts⟩ := hn.starts
  cases name with
  | nil => cases hc
  | cons d cs =>
    obtain rfl := Option.some.inj hc
    exact ⟨d, cs, rfl, isSpace_of_continuesName (continuesName_of_startsName hstarts)⟩

/-- A name has as many bytes as characters. -/
theorem IsName.byteLength_eq {name : List Char} (hn : IsName name) :
    byteLength name = name.length := by
  have hsize : ∀ c ∈ name, c.utf8Size = 1 := by
    intro c hc
    have hlt := (toNat_of_continuesName (hn.continues c hc)).2
    have hval : c.toNat = c.val.toNat := rfl
    have hmax : (127 : UInt32).toNat = 127 := rfl
    exact Char.utf8Size_eq_one_iff.2 (UInt32.le_iff_toNat_le.2 (by omega))
  clear hn
  induction name with
  | nil => rfl
  | cons c cs ih =>
    rw [byteLength, hsize c (by simp), ih fun d hd => hsize d (by simp [hd]), List.length_cons]
    omega

/-- What is read is a name, as long as it goes. -/
theorem nameAtStart?_eq_some {cs name : List Char} (h : nameAtStart? cs = some name) :
    IsName name ∧ ∃ rest, cs = name ++ rest ∧ EndsName rest := by
  cases cs with
  | nil => cases h
  | cons c cs =>
    rw [nameAtStart?] at h
    split_ifs at h with hc
    obtain rfl := Option.some.inj h
    refine ⟨⟨⟨c, rfl, hc⟩, ?_⟩, cs.dropWhile continuesName, ?_, ?_⟩
    · intro d hd
      rcases List.mem_cons.1 hd with rfl | hd
      · exact continuesName_of_startsName hc
      · exact List.mem_takeWhile_imp hd
    · rw [List.cons_append, List.takeWhile_append_dropWhile]
    · intro d hd
      have := List.head?_dropWhile_not continuesName cs
      rwa [Option.mem_def.1 hd] at this

/-- A name is read where it stands. -/
theorem IsName.nameAtStart? {name rest : List Char} (hn : IsName name)
    (hrest : EndsName rest) : Compiler.nameAtStart? (name ++ rest) = some name := by
  obtain ⟨c, cs, rfl, -⟩ := hn.exists_cons
  have hstarts : startsName c = true := by simpa using hn.starts
  have hcs : ∀ d ∈ cs, continuesName d = true := fun d hd => hn.continues d (by simp [hd])
  have hrest' : rest.takeWhile continuesName = [] := by
    cases rest with
    | nil => rfl
    | cons d rest => simp [hrest d rfl]
  rw [List.cons_append, Compiler.nameAtStart?, if_pos hstarts,
    List.takeWhile_append_of_pos hcs, hrest', List.append_nil]

/-! ## The text of an import -/

/-- White space between two words. -/
structure IsGap (cs : List Char) : Prop where
  ne_nil : cs ≠ []
  spaces : ∀ c ∈ cs, isSpace c = true

instance (cs : List Char) : Decidable (IsGap cs) :=
  decidable_of_iff (cs ≠ [] ∧ cs.all isSpace = true)
    ⟨fun h => ⟨h.1, List.all_eq_true.1 h.2⟩, fun h => ⟨h.ne_nil, List.all_eq_true.2 h.spaces⟩⟩

theorem IsGap.ne {gap : List Char} (hg : IsGap gap) {c d : Char} (hc : c ∈ gap)
    (hd : isSpace d = false) : c ≠ d := by
  rintro rfl
  rw [hg.spaces c hc] at hd
  cases hd

/-- The white space a text begins with, if it does. -/
theorem isGap_takeWhile {cs : List Char} (h : cs.takeWhile isSpace ≠ []) :
    IsGap (cs.takeWhile isSpace) :=
  ⟨h, fun _ hc => List.mem_takeWhile_imp hc⟩

/-- White space is split from what stands behind it. -/
theorem IsGap.split {gap : List Char} (hg : IsGap gap) {c : Char} (hc : isSpace c = false)
    (rest : List Char) : (gap ++ c :: rest).takeWhile isSpace = gap ∧
      (gap ++ c :: rest).dropWhile isSpace = c :: rest := by
  constructor
  · rw [List.takeWhile_append_of_pos hg.spaces]
    simp [hc]
  · rw [List.dropWhile_append_of_pos hg.spaces]
    simp [hc]

/-- A word is only taken off a text that begins with it. -/
theorem behind?_eq_some {word cs rest : List Char} (h : behind? word cs = some rest) :
    cs = word ++ rest := by
  unfold behind? at h
  split_ifs at h with hp
  obtain ⟨rest, rfl⟩ := List.isPrefixOf_iff_prefix.1 hp
  rw [← Option.some.inj h, List.drop_left]

@[simp] theorem behind?_append (word rest : List Char) :
    behind? word (word ++ rest) = some rest := by
  simp [behind?]

/-- `as` and an alias behind a module's name. -/
def asText (gap gap' name : List Char) : List Char := gap ++ 'a' :: 's' :: (gap' ++ name)

theorem length_asText (gap gap' name : List Char) :
    (asText gap gap' name).length = gap.length + 2 + gap'.length + name.length := by
  simp [asText]
  omega

/-- An alias is read from `as`, a name, and white space before each. -/
theorem aliasClause?_eq_some {cs name : List Char} {n : Nat}
    (h : aliasClause? cs = some (name, n)) :
    ∃ gap gap' rest, IsGap gap ∧ IsGap gap' ∧ IsName name ∧
      EndsName rest ∧ cs = asText gap gap' name ++ rest ∧ n = (asText gap gap' name).length := by
  simp only [aliasClause?, Option.bind_eq_bind, Option.bind_none] at h
  split_ifs at h with hgap
  obtain ⟨rest, hrest, h⟩ := Option.bind_eq_some_iff.1 h
  split_ifs at h with hgap'
  obtain ⟨name, hname, h⟩ := Option.bind_eq_some_iff.1 h
  obtain ⟨rfl, rfl⟩ := Prod.mk.inj (Option.some.inj h)
  obtain ⟨hname, behind, hbehind, hend⟩ := nameAtStart?_eq_some hname
  refine ⟨_, _, behind, isGap_takeWhile hgap, isGap_takeWhile hgap', hname, hend, ?_, ?_⟩
  · conv_lhs => rw [← List.takeWhile_append_dropWhile (p := isSpace) (l := cs),
      behind?_eq_some hrest, ← List.takeWhile_append_dropWhile (p := isSpace) (l := rest), hbehind]
    simp [asText]
  · rw [length_asText]

/-- The text of an alias is read as that. -/
theorem aliasClause?_asText {gap gap' name rest : List Char} (hgap : IsGap gap)
    (hgap' : IsGap gap') (hn : IsName name) (hrest : EndsName rest) :
    aliasClause? (asText gap gap' name ++ rest) =
      some (name, (asText gap gap' name).length) := by
  obtain ⟨c, cs, rfl, hc⟩ := hn.exists_cons
  have hs : isSpace 'a' = false := rfl
  have hfirst := hgap.split hs ('s' :: (gap' ++ (c :: cs ++ rest)))
  have hsecond := hgap'.split hc (cs ++ rest)
  have htext : asText gap gap' (c :: cs) ++ rest =
      gap ++ 'a' :: 's' :: (gap' ++ (c :: cs ++ rest)) := by simp [asText]
  have hword : behind? ['a', 's'] ('a' :: 's' :: (gap' ++ (c :: cs ++ rest))) =
      some (gap' ++ c :: (cs ++ rest)) := behind?_append ['a', 's'] _
  have hname := hn.nameAtStart? hrest
  rw [List.cons_append] at hname
  simp only [aliasClause?, Option.bind_eq_bind, htext, hfirst, hgap.ne_nil, if_false, hword,
    Option.bind_some, hsecond, hgap'.ne_nil, hname, length_asText]
  rfl

/-- The word that imports begin with. -/
def importWord : List Char := ['i', 'm', 'p', 'o', 'r', 't']

theorem toList_import : "import".toList = importWord := by decide +kernel

/-- `import` and the name of a module in double quotes. -/
def importText (gap name : List Char) : List Char :=
  importWord ++ (gap ++ '"' :: (name ++ ['"']))

theorem length_importText (gap name : List Char) :
    (importText gap name).length = 6 + gap.length + name.length + 2 := by
  simp [importText, importWord]
  omega

/-- No quote stands before the first. -/
theorem takeWhile_ne_quote (cs : List Char) : '"' ∉ cs.takeWhile (· ≠ '"') := by
  intro h
  simpa using List.mem_takeWhile_imp h

/-- What stands behind the text up to the first double quote begins with it. -/
theorem eq_of_drop_takeWhile {cs tail : List Char} {quote : Char}
    (h : cs.drop (cs.takeWhile (· ≠ '"')).length = quote :: tail) :
    cs = cs.takeWhile (· ≠ '"') ++ '"' :: tail := by
  have hsplit := List.takeWhile_append_dropWhile (p := (· ≠ '"')) (l := cs)
  have hdrop : cs.dropWhile (· ≠ '"') = quote :: tail :=
    calc cs.dropWhile (· ≠ '"')
        = (cs.takeWhile (· ≠ '"') ++ cs.dropWhile (· ≠ '"')).drop
            (cs.takeWhile (· ≠ '"')).length := List.drop_left.symm
      _ = quote :: tail := by rw [hsplit, h]
  have hquote := List.head?_dropWhile_not (fun c => decide (c ≠ '"')) cs
  rw [hdrop] at hquote
  obtain rfl : quote = '"' := by simpa using hquote
  rw [← hdrop, hsplit]

/-- An import is only found where a word may start, in the text of one. -/
theorem importClause_eq_some {before : Option Char} {cs : List Char} {c : ImportClause} {n : Nat}
    (h : importClause before cs = some (c, n)) :
    ∃ gap tail, startsWord before = true ∧ IsGap gap ∧ '"' ∉ c.name ∧
      cs = importText gap c.name ++ tail ∧ c.asName = (aliasClause? tail).map (·.1) ∧
      n = (importText gap c.name).length + ((aliasClause? tail).map (·.2)).getD 0 := by
  simp only [importClause, Option.bind_eq_bind, Option.bind_none, toList_import] at h
  obtain ⟨rest, hrest, h⟩ := Option.bind_eq_some_iff.1 h
  split_ifs at h with hword hgap
  split at h
  · rename_i inner hinner
    split at h
    · rename_i quote tail htail
      obtain ⟨rfl, rfl⟩ := Prod.mk.inj (Option.some.inj h)
      refine ⟨_, tail, by simpa using hword, isGap_takeWhile hgap, takeWhile_ne_quote inner, ?_,
        rfl, ?_⟩
      · rw [behind?_eq_some hrest, importText, List.append_assoc, List.append_assoc,
          List.cons_append, List.append_assoc, List.singleton_append,
          ← eq_of_drop_takeWhile htail, ← hinner, List.takeWhile_append_dropWhile]
      · rw [length_importText]
    · cases h
  · cases h

/-- The text of an import is found where a word may start. -/
theorem importClause_importText {before : Option Char} {gap name : List Char} (tail : List Char)
    (hword : startsWord before = true) (hgap : IsGap gap) (hname : '"' ∉ name) :
    importClause before (importText gap name ++ tail) =
      some (⟨name, (aliasClause? tail).map (·.1), 6 + byteLength gap⟩,
        (importText gap name).length + ((aliasClause? tail).map (·.2)).getD 0) := by
  have hs : isSpace '"' = false := rfl
  have htext : importText gap name ++ tail =
      importWord ++ (gap ++ '"' :: (name ++ '"' :: tail)) := by simp [importText]
  have hsplit := hgap.split hs (name ++ '"' :: tail)
  have htake : (name ++ '"' :: tail).takeWhile (· ≠ '"') = name := by
    rw [takeWhile_append_cons (by simp), List.takeWhile_eq_self_iff]
    rintro c hc
    simpa using fun h : c = '"' => hname (h ▸ hc)
  simp only [importClause, Option.bind_eq_bind, toList_import, htext, behind?_append,
    Option.bind_some, hword, hsplit, hgap.ne_nil, htake, List.drop_left, length_importText]
  rfl

/-! ## The use of a member -/

/-- The text of a member behind the alias of its module. -/
def useText (asName member : List Char) : List Char := asName ++ ':' :: ':' :: member

/-- The use of a member is only found where a word may start, in the text of one. -/
theorem memberUse_eq_some {before : Option Char} {cs : List Char} {u : MemberUse} {n : Nat}
    (h : memberUse before cs = some (u, n)) :
    ∃ tail, startsWord before = true ∧ IsName u.asName ∧ IsName u.member ∧
      cs = useText u.asName u.member ++ tail ∧ EndsName tail ∧
      n = (useText u.asName u.member).length := by
  simp only [memberUse, Option.bind_eq_bind, Option.bind_none] at h
  obtain ⟨asName, has, h⟩ := Option.bind_eq_some_iff.1 h
  split_ifs at h with hword
  obtain ⟨rest, hrest, h⟩ := Option.bind_eq_some_iff.1 h
  obtain ⟨member, hmem, h⟩ := Option.bind_eq_some_iff.1 h
  obtain ⟨rfl, rfl⟩ := Prod.mk.inj (Option.some.inj h)
  obtain ⟨hasName, rest', rfl, -⟩ := nameAtStart?_eq_some has
  obtain ⟨hmember, tail, rfl, htail⟩ := nameAtStart?_eq_some hmem
  rw [List.drop_left] at hrest
  refine ⟨tail, by simpa using hword, hasName, hmember, ?_, htail, ?_⟩
  · rw [behind?_eq_some hrest]
    simp [useText]
  · simp [useText, MemberUse.length]
    omega

/-- The text of a member's use is found where a word may start. -/
theorem memberUse_useText {before : Option Char} {asName member tail : List Char}
    (hword : startsWord before = true) (hasName : IsName asName) (hmember : IsName member)
    (htail : EndsName tail) :
    memberUse before (useText asName member ++ tail) =
      some (⟨asName, member⟩, (useText asName member).length) := by
  have htext : useText asName member ++ tail = asName ++ ([':', ':'] ++ (member ++ tail)) := by
    simp [useText]
  have hcolon : EndsName ([':', ':'] ++ (member ++ tail)) := by
    rintro c hc
    obtain rfl := Option.some.inj hc
    rfl
  simp only [memberUse, Option.bind_eq_bind, htext, hasName.nameAtStart? hcolon, hword,
    Option.bind_some, List.drop_left, behind?_append, hmember.nameAtStart? htail]
  simp [useText, MemberUse.length]
  omega

end LiveScene.Compiler
