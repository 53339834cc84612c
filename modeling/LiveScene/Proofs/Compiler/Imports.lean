import LiveScene.Compiler.Compilation
import LiveScene.Proofs.Compiler.Clauses
import LiveScene.Proofs.Compiler.Code

/-!
# What the check of imports sees

The check finds its imports in one pass over the raw source and only then
drops those that start in a comment or a string. A match that starts there and
goes on into an import in code hides that import (`comment_hides_import`).

In a `Legible` source no match does. Then nothing that begins earlier reaches
into an import in code (`Legible.endsIn`), for a match that begins in code only
holds its own words, its quotes and its alias. Into the use of a member in code
reaches nothing but a path of modules (`memberUse_endsIn`). So the compiler
accounts for every import of a legible source, whatever stands in its comments
and strings (`compile_accounts`).
-/

namespace LiveScene.Compiler

open Text Diagnostics Sandbox Script

/-! ## Nothing reaches into an import -/

/-- The import clause that starts at the character of an index, and its length. -/
def clauseAt? (source : List Char) (i : Nat) : Option (ImportClause × Nat) :=
  importClause (lastOr none (source.take i)) (source.drop i)

/-- What the check asks of a source beyond that it parses: a match that begins in a comment
or a string does not reach into an import in code, and the alias of an import is not the
`import` of another one. -/
structure Legible (source : List Char) : Prop where
  contained : ∀ i < source.length, codeAt source i = false →
    ∀ m ∈ clauseAt? source i, ∀ k < m.2, codeAt source (i + k) = true →
      clauseAt? source (i + k) = none
  unreserved : ∀ i < source.length, codeAt source i = true →
    ∀ m ∈ clauseAt? source i, m.1.asName = some importWord →
      clauseAt? source (i + (m.2 - importWord.length)) = none

-- The parser refuses the alias `import`, but what the check takes for code need not be code to
-- the parser. Here a backquoted text ends with its backslash for the parser and goes on for the
-- check, to which the strings behind it are code: two imports, the second of which it misses.
example :
    let source := "\x60\\\x60 + \"\x60 import \" + x + \" as import \" + y + \"\""
    (compile .default .implicit source).grammar = [] ∧
      (clauseAt? source.toList 29).isSome = true ∧ codeAt source.toList 29 = true ∧
      (imports (inertRanges (bytes source.toList)) source.toList).map (·.1) = [9] := by
  decide +kernel

/-- Where two texts that are the same were put together: the second part of the one begins
behind the first part of the other, or in it. -/
theorem append_eq_append_cases {y rest u v : List Char} (h : y ++ rest = u ++ v) :
    (∃ y', y = u ++ y' ∧ y' ++ rest = v) ∨ ∃ c cs, u = y ++ c :: cs ∧ rest = c :: cs ++ v := by
  rcases List.append_eq_append_iff.1 h with ⟨z, hu, hrest⟩ | ⟨y', hy, hv⟩
  · cases z with
    | nil => exact .inl ⟨[], by simpa using hu.symm, by simpa using hrest⟩
    | cons c cs => exact .inr ⟨c, cs, hu, hrest⟩
  · exact .inl ⟨y', hy, hv.symm⟩

/-- A word does not start inside of a word. -/
theorem startsWord_inside {u y word : List Char} (hword : ∀ c ∈ word, isWord c = true)
    (hy : y ≠ []) (hsub : y <+: word) : startsWord (lastOr none (u ++ y)) = false := by
  obtain ⟨w, c, rfl⟩ := (List.eq_nil_or_concat' y).resolve_left hy
  have hc : isWord c = true := hword c (hsub.subset (by simp))
  simp [lastOr, startsWord, hc]

/-- The keyword is spelled like a name. -/
theorem isName_import : IsName importWord := by decide +kernel

section

variable {x y rest : List Char}

/-- A text that begins with the letter of `import` where a word may start. -/
structure BeginsImport (pre rest : List Char) : Prop where
  word : startsWord (lastOr none pre) = true
  head : ∃ r, rest = 'i' :: r

/-- Within an import up to its closing quote, another one only starts in the quotes. -/
theorem BeginsImport.importText {gap name tail : List Char} (hb : BeginsImport (x ++ y) rest)
    (hgap : IsGap gap) (hy : y ≠ []) (h : y ++ rest = importText gap name ++ tail) :
    (∃ y' z, y = importWord ++ (gap ++ '"' :: y') ∧ name = y' ++ z ∧ rest = z ++ '"' :: tail) ∨
      ∃ y', y = Compiler.importText gap name ++ y' ∧ y' ++ rest = tail := by
  obtain ⟨r, hr⟩ := hb.head
  have hletters : ∀ c ∈ importWord, isWord c = true := fun c hc =>
    isWord_of_continuesName (isName_import.continues c hc)
  have hquote : 'i' ∉ gap ++ ['"'] := by
    have hs : isSpace 'i' = false := rfl
    simpa using fun hi => hgap.ne hi hs rfl
  rw [show Compiler.importText gap name ++ tail =
    importWord ++ ((gap ++ ['"']) ++ ((name ++ ['"']) ++ tail)) by
      simp [Compiler.importText]] at h
  rcases append_eq_append_cases h with ⟨y₁, rfl, h₁⟩ | ⟨c, cs, hword, -⟩
  swap
  · have := startsWord_inside (u := x) hletters hy ⟨c :: cs, hword.symm⟩
    rw [hb.word] at this
    cases this
  rcases append_eq_append_cases h₁ with ⟨y₂, rfl, h₂⟩ | ⟨c, cs, hgap', hrest⟩
  swap
  · obtain rfl : 'i' = c := (List.cons.inj (hr.symm.trans hrest)).1
    exact (hquote (by simp [hgap'])).elim
  rcases append_eq_append_cases h₂ with ⟨y₃, rfl, h₃⟩ | ⟨c, cs, hname, hrest⟩
  · exact .inr ⟨y₃, by simp [Compiler.importText], h₃⟩
  · obtain ⟨z, d, hz⟩ := (List.eq_nil_or_concat' (c :: cs)).resolve_left (by simp)
    rw [hz, ← List.append_assoc] at hname
    obtain ⟨rfl, hd⟩ := List.append_inj' hname rfl
    obtain rfl := List.singleton_inj.1 hd
    exact .inl ⟨y₂, z, by simp, rfl, by rw [hrest, hz]; simp⟩

/-- Within the clause of an alias, an import only starts with the alias itself. -/
theorem BeginsImport.asText {gap gap' name tail : List Char} (hb : BeginsImport (x ++ y) rest)
    (hgap : IsGap gap) (hgap' : IsGap gap') (hname : IsName name)
    (h : y ++ rest = asText gap gap' name ++ tail) :
    rest = name ++ tail ∨ (Compiler.asText gap gap' name).length ≤ y.length := by
  obtain ⟨r, hr⟩ := hb.head
  have hs : isSpace 'i' = false := rfl
  have hlead : 'i' ∉ gap ++ 'a' :: 's' :: gap' := by
    simpa using ⟨fun hi => hgap.ne hi hs rfl, fun hi => hgap'.ne hi hs rfl⟩
  rw [show Compiler.asText gap gap' name ++ tail =
    (gap ++ 'a' :: 's' :: gap') ++ (name ++ tail) by simp [Compiler.asText]] at h
  rcases append_eq_append_cases h with ⟨y₁, rfl, h₁⟩ | ⟨c, cs, hlead', hrest⟩
  swap
  · obtain rfl : 'i' = c := (List.cons.inj (hr.symm.trans hrest)).1
    exact (hlead (by simp [hlead'])).elim
  rcases append_eq_append_cases h₁ with ⟨y₂, rfl, -⟩ | ⟨c, cs, hname', hrest⟩
  · exact .inr (by simp [Compiler.asText])
  · left
    suffices y₁ = [] by rw [hrest, hname', this]; rfl
    by_contra hy
    have := startsWord_inside (u := x ++ (gap ++ 'a' :: 's' :: gap'))
      (fun d hd => isWord_of_continuesName (hname.continues d hd)) hy ⟨c :: cs, hname'.symm⟩
    rw [List.append_assoc, hb.word] at this
    cases this

end

theorem IsGap.isPlain {gap : List Char} (hg : IsGap gap) {c : Char} (hc : c ∈ gap) :
    IsPlain c :=
  isPlain_of_all (by decide) (hg.spaces c hc)

theorem isPlain_of_mem_import {c : Char} (hc : c ∈ importWord) : IsPlain c :=
  isPlain_of_all (by decide) (isName_import.continues c hc)

/-- An import begins with the keyword and no longer name. -/
theorem nameAtStart?_importText {gap : List Char} (hgap : IsGap gap) (name tail : List Char) :
    nameAtStart? (importText gap name ++ tail) = some importWord := by
  obtain ⟨c, cs, rfl⟩ := List.exists_cons_of_ne_nil hgap.ne_nil
  rw [importText, List.append_assoc]
  refine isName_import.nameAtStart? ?_
  rintro d hd
  obtain rfl : c = d := by simpa using hd
  by_contra hc
  have hs := isSpace_of_continuesName (by simpa using hc)
  exact hgap.ne (List.mem_cons_self ..) hs rfl

/-- What stands in the quotes of an import in code is not code. -/
theorem codeAt_quotes {x gap y z tail : List Char} (hgap : IsGap gap) (hname : '"' ∉ y ++ z)
    (hcode : codeAt (x ++ (importText gap (y ++ z) ++ tail)) x.length = true) :
    codeAt (x ++ (importText gap (y ++ z) ++ tail))
      (x ++ (importWord ++ (gap ++ '"' :: y))).length = false := by
  have hplain : ∀ d ∈ importWord ++ gap, IsPlain d := by
    intro d hd
    rcases List.mem_append.1 hd with hd | hd
    · exact isPlain_of_mem_import hd
    · exact hgap.isPlain hd
  have hsplit : x ++ (importText gap (y ++ z) ++ tail) =
      x ++ (importWord ++ gap ++ '"' :: (y ++ (z ++ '"' :: tail))) := by simp [importText]
  have hout := codeAt_literal (hsplit ▸ hcode) hplain hname
  rwa [← hsplit, List.append_assoc importWord] at hout

/-- An import that starts in the clause of an alias is the alias, and ends the clause. -/
theorem aliasClause?_eq_import {x y rest gap name tail asName : List Char} {n : Nat}
    (hb : BeginsImport (x ++ y) rest) (hgap : IsGap gap)
    (hrest : rest = importText gap name ++ tail)
    (ha : aliasClause? (y ++ rest) = some (asName, n)) (hlt : y.length < n) :
    asName = importWord ∧ n = y.length + importWord.length := by
  obtain ⟨g, g', behind, hg, hg', hA, hend, htext, rfl⟩ := aliasClause?_eq_some ha
  have hbehind : rest = asName ++ behind :=
    (hb.asText hg hg' hA htext).resolve_right (by omega)
  obtain rfl : asName = importWord := by
    have hword := nameAtStart?_importText hgap name tail
    rw [← hrest, hbehind, hA.nameAtStart? hend] at hword
    exact Option.some.inj hword
  have hlength := congrArg List.length htext
  rw [hbehind] at hlength
  simp only [List.length_append] at hlength
  exact ⟨rfl, by omega⟩

/-- In a legible source no match that begins earlier goes on into an import. -/
theorem Legible.endsIn {pre rest : List Char} (hl : Legible (pre ++ rest))
    (hcode : codeAt (pre ++ rest) pre.length = true) {c : ImportClause} {n : Nat}
    (hm : importClause (lastOr none pre) rest = some (c, n)) :
    importClause.EndsIn none pre rest := by
  rintro x y c' n' rfl hy hm'
  obtain ⟨gap₀, tail₀, hword₀, hgap₀, -, hrest₀, -, -⟩ := importClause_eq_some hm
  have hb : BeginsImport (x ++ y) rest := ⟨hword₀, by rw [hrest₀]; exact ⟨_, rfl⟩⟩
  have hx : x.length < (x ++ y ++ rest).length := by
    have := List.length_pos_of_ne_nil hy
    simp
    omega
  have hclause : clauseAt? (x ++ y ++ rest) x.length = some (c', n') := by
    rw [clauseAt?, List.append_assoc, List.take_left, List.drop_left]
    exact hm'
  have hthere : clauseAt? (x ++ y ++ rest) (x ++ y).length = some (c, n) := by
    rw [clauseAt?, List.take_left, List.drop_left]
    exact hm
  by_contra hlt
  cases hcx : codeAt (x ++ y ++ rest) x.length with
  | false =>
    have hnone := hl.contained x.length hx hcx _ hclause y.length (by omega)
      (by rwa [← List.length_append])
    rw [← List.length_append, hthere] at hnone
    cases hnone
  | true =>
    obtain ⟨gap, tail, -, hgap, hname, htext, halias, rfl⟩ := importClause_eq_some hm'
    rw [List.append_assoc, htext] at hcx hcode
    rcases hb.importText hgap hy htext with ⟨y', z, rfl, hz, rfl⟩ | ⟨y', rfl, rfl⟩
    · -- it would start in the quotes of the earlier one
      rw [hz] at hname hcx hcode
      have hout := codeAt_quotes hgap hname hcx
      rw [hcode] at hout
      cases hout
    · -- it would be the alias of the earlier one
      cases ha : aliasClause? (y' ++ rest) with
      | none => simp [ha] at hlt
      | some a =>
        obtain ⟨asName, m⟩ := a
        have hb' : BeginsImport ((x ++ importText gap c'.name) ++ y') rest := by simpa using hb
        obtain ⟨rfl, rfl⟩ := aliasClause?_eq_import hb' hgap₀ hrest₀ ha (by simpa [ha] using hlt)
        have hnone := hl.unreserved x.length hx (by simpa using hcx) _ hclause
          (by rw [halias, ha]; rfl)
        have hstart : x.length + ((importText gap c'.name).length +
            (y'.length + importWord.length) - importWord.length) =
              (x ++ (importText gap c'.name ++ y')).length := by
          simp only [List.length_append]
          omega
        simp only [ha, Option.map_some, Option.getD_some, hstart, hthere] at hnone
        cases hnone

/-- Only a path of modules that leads to it reaches into the use of a member. -/
theorem memberUse_endsIn {pre rest : List Char} {u : MemberUse} {n : Nat}
    (hm : memberUse (lastOr none pre) rest = some (u, n))
    (hpath : ¬ [':', ':'] <:+ pre) : memberUse.EndsIn none pre rest := by
  rintro x y v k rfl hy hm'
  obtain ⟨tail, hword, hname, -, hrest, -⟩ := memberUse_eq_some hm
  obtain ⟨tail', -, hasName, hmember, htext, -, rfl⟩ := memberUse_eq_some hm'
  have hcolon : ∀ cs, rest ≠ ':' :: cs := by
    rintro cs rfl
    obtain ⟨c, name, hc, -⟩ := hname.exists_cons
    rw [hc] at hrest
    obtain rfl : ':' = c := (List.cons.inj hrest).1
    have := hname.continues ':' (by simp [hc])
    exact absurd this (by decide +kernel)
  rw [show useText v.asName v.member ++ tail' =
    v.asName ++ ([':', ':'] ++ (v.member ++ tail')) by simp [useText]] at htext
  rcases append_eq_append_cases htext with ⟨y₁, rfl, h₁⟩ | ⟨c, cs, has, -⟩
  swap
  · have := startsWord_inside (u := x)
      (fun d hd => isWord_of_continuesName (hasName.continues d hd)) hy ⟨c :: cs, has.symm⟩
    rw [hword] at this
    cases this
  rcases append_eq_append_cases h₁ with ⟨y₂, rfl, h₂⟩ | ⟨c, cs, hcc, hrest'⟩
  swap
  · have hc : c ∈ [':', ':'] := by simp [hcc]
    obtain rfl : c = ':' := by simpa using hc
    exact (hcolon _ hrest').elim
  rcases append_eq_append_cases h₂ with ⟨y₃, rfl, -⟩ | ⟨c, cs, hmem, -⟩
  · simp [useText]
  · by_cases hy₂ : y₂ = []
    · exact (hpath ⟨x ++ v.asName, by simp [hy₂]⟩).elim
    · have := startsWord_inside (u := x ++ (v.asName ++ [':', ':']))
        (fun d hd => isWord_of_continuesName (hmember.continues d hd)) hy₂ ⟨c :: cs, hmem.symm⟩
      simp only [List.append_assoc] at this hword
      rw [hword] at this
      cases this

/-! ## What is found -/

/-- An import of a module in code: `import`, white space, and the name in double quotes. -/
structure ImportAt (source pre gap name tail : List Char) : Prop where
  source_eq : source = pre ++ (importText gap name ++ tail)
  code : codeAt source pre.length = true
  word : startsWord (lastOr none pre) = true
  gap : IsGap gap
  name : '"' ∉ name

/-- `as` and an alias behind an import. -/
structure NamedAs (tail asName : List Char) : Prop where
  text : ∃ gap gap' rest, IsGap gap ∧ IsGap gap' ∧ tail = asText gap gap' asName ++ rest ∧
    EndsName rest
  name : IsName asName

/-- The use of a member in code that is not itself on a path of modules. -/
structure UseAt (source pre asName member tail : List Char) : Prop where
  source_eq : source = pre ++ (useText asName member ++ tail)
  code : codeAt source pre.length = true
  word : startsWord (lastOr none pre) = true
  path : ¬ [':', ':'] <:+ pre
  asName : IsName asName
  member : IsName member
  ends : EndsName tail

section

variable {source pre gap name tail asName member : List Char} {ambient : Ambient}

/-- The alias behind an import is read. -/
theorem NamedAs.aliasClause? (hn : NamedAs tail asName) :
    (Compiler.aliasClause? tail).map (·.1) = some asName := by
  obtain ⟨gap, gap', rest, hgap, hgap', rfl, hrest⟩ := hn.text
  rw [aliasClause?_asText hgap hgap' hn.name hrest]
  rfl

/-- In a legible source every import in code is found. -/
theorem ImportAt.mem_imports (hi : ImportAt source pre gap name tail) (hl : Legible source) :
    (byteLength pre, ⟨name, (Compiler.aliasClause? tail).map (·.1), 6 + byteLength gap⟩) ∈
      imports (inertRanges (bytes source)) source := by
  have hm := importClause_importText tail hi.word hi.gap hi.name
  have hcode := hi.code
  obtain ⟨rfl, -, -, -, -⟩ := hi
  have hends := hl.endsIn hcode hm
  have hmem := mem_searchFrom 0 hends hm (by simp [importText])
  rw [Nat.zero_add] at hmem
  rw [codeAt, List.take_left] at hcode
  exact List.mem_filter.2 ⟨hmem, hcode⟩

/-- Every use of a member in code is found. -/
theorem UseAt.mem_searchAll (hu : UseAt source pre asName member tail) :
    (byteLength pre, ⟨asName, member⟩) ∈ searchAll memberUse source := by
  have hm := memberUse_useText hu.word hu.asName hu.member hu.ends
  have hends := memberUse_endsIn hm hu.path
  obtain ⟨c, cs, hcs, -⟩ := hu.asName.exists_cons
  have hmem := mem_searchFrom 0 hends hm (by simp [useText, hcs])
  rw [Nat.zero_add] at hmem
  rw [hu.source_eq]
  exact hmem

/-- Findings about imports are findings of the check. -/
theorem mem_moduleFindings_of_import {c : ImportClause} {start : Nat} {d : Diagnostic}
    (hc : (start, c) ∈ imports (inertRanges (bytes source)) source)
    (hd : importFinding? ambient start c = some d) : d ∈ moduleFindings ambient source :=
  List.mem_append_left _ (List.mem_filterMap.2 ⟨_, hc, hd⟩)

/-- So are those about uses in code of members of the ambient module. -/
theorem UseAt.mem_moduleFindings (hu : UseAt source pre asName member tail)
    {c : ImportClause} {start : Nat} {d : Diagnostic}
    (hc : (start, c) ∈ imports (inertRanges (bytes source)) source)
    (hname : c.name = ambient.moduleName.toList) (has : c.asName = some asName)
    (hd : memberFinding? ambient (bytes source) (inertRanges (bytes source)) (byteLength pre)
      ⟨asName, member⟩ = some d) : d ∈ moduleFindings ambient source := by
  refine List.mem_append_right _ (List.mem_filterMap.2 ⟨(_, ⟨asName, member⟩), ?_, hd⟩)
  refine List.mem_filter.2 ⟨hu.mem_searchAll, ?_⟩
  have halias : asName ∈ aliasesOf ambient.moduleName
      (imports (inertRanges (bytes source)) source) :=
    List.mem_filterMap.2 ⟨_, hc, (if_pos hname).trans has⟩
  have hcode := hu.code
  rw [codeAt, hu.source_eq, List.take_left, ← hu.source_eq] at hcode
  simp [hcode, halias]

/-- A member that is not declared has a finding, whatever stands behind it. -/
theorem memberFinding?_undeclared {bs : List UInt8} {inert : List ByteRange} {start : Nat}
    {u : MemberUse} (hu : ambient.declares (String.ofList u.member) = false) :
    memberFinding? ambient bs inert start u = some (.text (start + u.lead) u.member.length
      ("Module '" ++ ambient.moduleName ++ "' has no exported member '" ++
        String.ofList u.member ++ "'.")) := by
  simp [memberFinding?, hu]

/-- The code for the sandbox is the source as it stands. -/
theorem compile_emitted (o : Options) (ambient : Ambient) (source : String) :
    (compile o ambient source).emitted = source := by
  simp only [compile]
  split <;> rfl

/-- The findings of the check are among those of the compiler. -/
theorem mem_semantic {o : Options} {source : String} {d : Diagnostic}
    (hparse : (compile o ambient source).grammar = [])
    (hd : d ∈ moduleFindings ambient source.toList) :
    d ∈ (compile o ambient source).semantic := by
  cases hp : parse parseLimits source.toList with
  | error e =>
    simp only [compile, hp] at hparse
    cases hparse
  | ok p =>
    simp only [compile, hp]
    exact List.mem_mergeSort.2 (List.mem_append_right _ hd)

end

section

variable {o : Options} {ambient : Ambient} {source : String}
  {pre gap name tail pre' asName member tail' : List Char}

/-- An import of another module than the ambient one has a finding, which covers the name in its
quotes. -/
theorem ImportAt.exists_finding (hi : ImportAt source.toList pre gap name tail)
    (hparse : (compile o ambient source).grammar = []) (hl : Legible source.toList)
    (hname : name ≠ ambient.moduleName.toList) :
    ∃ d ∈ (compile o ambient source).semantic,
      d.offset = byteLength (pre ++ importWord ++ gap) ∧
      d.length = byteLength ('"' :: (name ++ ['"'])) ∧
      d.innermostMessage = "Cannot find module '" ++ String.ofList name ++ "'. Only the '" ++
        ambient.moduleName ++ "' module can be imported." := by
  have hfound := mem_moduleFindings_of_import (hi.mem_imports hl) (if_neg hname)
  have himport : byteLength importWord = 6 := by decide +kernel
  have hquote : '"'.utf8Size = 1 := by decide +kernel
  refine ⟨_, mem_semantic hparse hfound, ?_, ?_, rfl⟩
  · simp only [Diagnostic.offset, byteLength_append, himport]
    omega
  · simp [Diagnostic.length, byteLength, hquote]
    omega

/-- The use of a member that the ambient module lacks has a finding, which covers the name of
the member. -/
theorem UseAt.exists_finding (hu : UseAt source.toList pre' asName member tail')
    (hi : ImportAt source.toList pre gap name tail) (hn : NamedAs tail asName)
    (hparse : (compile o ambient source).grammar = []) (hl : Legible source.toList)
    (hname : name = ambient.moduleName.toList)
    (hmember : ambient.declares (String.ofList member) = false) :
    ∃ d ∈ (compile o ambient source).semantic,
      d.offset = byteLength (pre' ++ asName ++ [':', ':']) ∧ d.length = byteLength member ∧
      d.innermostMessage = "Module '" ++ ambient.moduleName ++ "' has no exported member '" ++
        String.ofList member ++ "'." := by
  have hfound := hu.mem_moduleFindings (hi.mem_imports hl) hname hn.aliasClause?
    (memberFinding?_undeclared hmember)
  have hcolon : ':'.utf8Size = 1 := by decide +kernel
  refine ⟨_, mem_semantic hparse hfound, ?_, hu.member.byteLength_eq.symm, rfl⟩
  simp [Diagnostic.offset, MemberUse.lead, byteLength, hcolon, hu.asName.byteLength_eq]

end

/-- The compiler accounts for every import in code of a legible source, whatever stands in
comments and strings. One of another module than the ambient one has a finding about the name
in its quotes, and every member used in code through an alias of the ambient module that the
module lacks has a finding about its name. -/
theorem compile_accounts (o : Options) (ambient : Ambient) {source : String}
    (hparse : (compile o ambient source).grammar = []) (hl : Legible source.toList)
    {pre gap name tail : List Char} (hi : ImportAt source.toList pre gap name tail) :
    (name ≠ ambient.moduleName.toList → ∃ d ∈ (compile o ambient source).semantic,
      d.offset = byteLength (pre ++ importWord ++ gap) ∧
      d.length = byteLength ('"' :: (name ++ ['"'])) ∧
      d.innermostMessage = "Cannot find module '" ++ String.ofList name ++ "'. Only the '" ++
        ambient.moduleName ++ "' module can be imported.") ∧
    (name = ambient.moduleName.toList → ∀ asName, NamedAs tail asName →
      ∀ pre' member tail', UseAt source.toList pre' asName member tail' →
      ambient.declares (String.ofList member) = false →
      ∃ d ∈ (compile o ambient source).semantic,
        d.offset = byteLength (pre' ++ asName ++ [':', ':']) ∧ d.length = byteLength member ∧
        d.innermostMessage = "Module '" ++ ambient.moduleName ++ "' has no exported member '" ++
          String.ofList member ++ "'.") :=
  ⟨fun hname => hi.exists_finding hparse hl hname,
    fun hname _ hn _ _ _ hu hmember => hu.exists_finding hi hn hparse hl hname hmember⟩

/-- A source with a comment about an import whose open quote goes with one in code, an import,
and a member that does not exist. -/
def sphereScript : String :=
  "// import \"fs\nlet r = \"1\";\nimport \"implicit\" as i;\ni::sphere(1)"

/-- The member is found, though a match that begins in the comment goes on into code. -/
theorem compile_accounts_sphere :
    (compile .default .implicit sphereScript).grammar = [] ∧ Legible sphereScript.toList ∧
    ∃ d ∈ (compile .default .implicit sphereScript).semantic, d.offset = 54 ∧ d.length = 6 ∧
      d.innermostMessage = "Module 'implicit' has no exported member 'sphere'." := by
  have hparse : (compile .default .implicit sphereScript).grammar = [] := by decide +kernel
  have hl : Legible sphereScript.toList := ⟨by decide +kernel, by decide +kernel⟩
  have hi : ImportAt sphereScript.toList "// import \"fs\nlet r = \"1\";\n".toList [' ']
      "implicit".toList " as i;\ni::sphere(1)".toList :=
    ⟨by decide +kernel, by decide +kernel, by decide +kernel, by decide +kernel, by decide +kernel⟩
  have hn : NamedAs " as i;\ni::sphere(1)".toList ['i'] :=
    ⟨⟨[' '], [' '], ";\ni::sphere(1)".toList, by decide +kernel, by decide +kernel,
      by decide +kernel, by decide +kernel⟩, by decide +kernel⟩
  have hu : UseAt sphereScript.toList
      "// import \"fs\nlet r = \"1\";\nimport \"implicit\" as i;\n".toList ['i'] "sphere".toList
      "(1)".toList :=
    ⟨by decide +kernel, by decide +kernel, by decide +kernel, by decide +kernel, by decide +kernel,
      by decide +kernel, by decide +kernel⟩
  have hall := (compile_accounts .default .implicit hparse hl hi).2 (by decide +kernel)
  exact ⟨hparse, hl, hall ['i'] hn _ _ _ hu (by decide +kernel)⟩

/-- The comment begins a match that goes on up to the quote of the import, which is not found. -/
theorem comment_hides_import :
    let source := "// import \"\nimport \"fs\" as fs;\n1"
    (compile .default .implicit source).grammar = [] ∧
      ImportAt source.toList "// import \"\n".toList [' '] ['f', 's'] " as fs;\n1".toList ∧
      (compile .default .implicit source).semantic = [] :=
  ⟨by decide +kernel, ⟨by decide +kernel, by decide +kernel, by decide +kernel,
    by decide +kernel, by decide +kernel⟩, by decide +kernel⟩

end LiveScene.Compiler
