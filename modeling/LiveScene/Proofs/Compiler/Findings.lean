import LiveScene.Proofs.Compiler.Imports
import LiveScene.Proofs.Text.Lines

/-!
# What findings point at

The offsets of findings come from two sides. That of a parse error is the offset
of its place, which is clamped to the source (`within_parseFinding`). Those of the
check of modules are counted from where a match starts, and a match is found
nowhere but in front of its own text: `ImportAt` of an import, `MemberAt` of the
use of a member. So each such finding marks the name that its message is about,
and the match it lies in starts in code (`about_of_mem_moduleFindings`).

The compiler puts both together in the order of their offsets, or reports the one
fault of a source that does not parse (`compile_reports`). `findings_in_place` says
of all it reports where it is and what it is about.
-/

namespace LiveScene.Compiler

open Text Diagnostics Sandbox Script

/-! ## Ranges in a source -/

/-- A finding about a stretch of the source that starts between two characters and ends with the
source at the latest. -/
structure Within (source : List Char) (d : Diagnostic) : Prop where
  boundary : IsBoundary source d.offset
  le : d.offset + d.length ≤ byteLength source

/-- A finding about a stretch of the source that holds exactly a text. -/
def Marks (source : List Char) (d : Diagnostic) (text : List Char) : Prop :=
  ∃ before after, source = before ++ (text ++ after) ∧ d.offset = byteLength before ∧
    d.length = byteLength text

variable {source : List Char} {d : Diagnostic}

/-- What marks a text of the source lies in the source. -/
theorem Marks.within {text : List Char} (h : Marks source d text) : Within source d := by
  obtain ⟨before, after, rfl, hoffset, hlength⟩ := h
  refine ⟨⟨before, List.prefix_append _ _, hoffset.symm⟩, ?_⟩
  rw [hoffset, hlength, byteLength_append, byteLength_append]
  omega

/-- A parse error has a place in the source, and a byte there unless it is the end. -/
theorem within_parseFinding (source : List Char) (e : ParseError) :
    Within source (parseFinding source e) := by
  have h := isBoundary_offsetOf source e.place.line e.place.col
  have hle := h.le
  refine ⟨h, ?_⟩
  simp only [parseFinding, Diagnostic.offset, Diagnostic.length] at hle ⊢
  split_ifs <;> omega

/-! ## Matches -/

/-- The use of a member in code, as far as the names go. -/
structure MemberAt (source pre asName member tail : List Char) : Prop where
  source_eq : source = pre ++ (useText asName member ++ tail)
  code : codeAt source pre.length = true
  word : startsWord (lastOr none pre) = true
  asName : IsName asName
  member : IsName member
  ends : EndsName tail

/-- What the check takes for an import in code is one, and its length is counted right. -/
theorem importAt_of_mem_imports {start : Nat} {c : ImportClause}
    (h : (start, c) ∈ imports (inertRanges (bytes source)) source) :
    ∃ pre gap tail, ImportAt source pre gap c.name tail ∧ start = byteLength pre ∧
      c.lead = byteLength (importWord ++ gap) ∧
      c.asName = (aliasClause? tail).map (·.1) := by
  obtain ⟨hmem, hcode⟩ := List.mem_filter.1 h
  obtain ⟨pre, rest, n, rfl, hstart, hm⟩ := exists_of_mem_searchFrom hmem
  rw [Nat.zero_add] at hstart
  obtain ⟨gap, tail, hword, hgap, hname, rfl, halias, -⟩ := importClause_eq_some hm
  refine ⟨pre, gap, tail, ⟨rfl, ?_, hword, hgap, hname⟩, hstart, ?_, halias⟩
  · rwa [codeAt, List.take_left, ← hstart]
  · have himport : byteLength importWord = 6 := by decide +kernel
    rw [importClause_importText tail hword hgap hname] at hm
    rw [byteLength_append, himport,
      ← congrArg ImportClause.lead (Prod.mk.inj (Option.some.inj hm)).1]

/-- What the check takes for the use of a member is one. -/
theorem memberAt_of_mem_searchAll {start : Nat} {u : MemberUse}
    (h : (start, u) ∈ searchAll memberUse source)
    (hcode : isCode (inertRanges (bytes source)) start = true) :
    ∃ pre tail, MemberAt source pre u.asName u.member tail ∧ start = byteLength pre := by
  obtain ⟨pre, rest, n, rfl, hstart, hm⟩ := exists_of_mem_searchFrom h
  rw [Nat.zero_add] at hstart
  obtain ⟨tail, hword, hasName, hmember, rfl, hends, -⟩ := memberUse_eq_some hm
  refine ⟨pre, tail, ⟨rfl, ?_, hword, hasName, hmember, hends⟩, hstart⟩
  rwa [codeAt, List.take_left, ← hstart]

/-- Aliases of the ambient module come from imports in code. -/
theorem namedAs_of_mem_aliasesOf {moduleName : String} {asName : List Char}
    (h : asName ∈ aliasesOf moduleName (imports (inertRanges (bytes source)) source)) :
    ∃ pre gap tail, ImportAt source pre gap moduleName.toList tail ∧ NamedAs tail asName := by
  obtain ⟨⟨start, c⟩, hc, hname⟩ := List.mem_filterMap.1 h
  dsimp only at hname
  split_ifs at hname with hmodule
  obtain ⟨pre, gap, tail, hi, -, -, halias⟩ := importAt_of_mem_imports hc
  rw [halias] at hname
  obtain ⟨⟨name, n⟩, hclause, rfl⟩ := Option.map_eq_some_iff.1 hname
  obtain ⟨g, g', rest, hg, hg', hn, hends, rfl, -⟩ := aliasClause?_eq_some hclause
  exact ⟨pre, gap, _, hmodule ▸ hi, ⟨g, g', rest, hg, hg', rfl, hends⟩, hn⟩

/-! ## Findings of the check of modules -/

/-- What is said of a member, given the arguments of its call: that the module lacks it, or that
there are more of them than it takes. -/
inductive Complaint (ambient : Ambient) (member : String) (arguments : Option Nat) : String → Prop
  | undeclared (h : ambient.declares member = false) :
    Complaint ambient member arguments
      ("Module '" ++ ambient.moduleName ++ "' has no exported member '" ++ member ++ "'.")
  | crowded {limit n : Nat} (h : ambient.declares member = true)
      (hlimit : ambient.maxArguments? member = some limit) (hn : arguments = some n)
      (hlt : limit < n) :
    Complaint ambient member arguments ("'" ++ member ++ "' takes at most " ++ toString limit ++
      " arguments; pass an array for more.")

/-- What a finding of the check of modules is about. -/
inductive About (ambient : Ambient) (source : List Char) (d : Diagnostic) : Prop
  /-- An import in code of another module. The finding marks the name in its quotes, and so does
  the one inside of it. -/
  | foreign {pre gap name tail : List Char} (place : ImportAt source pre gap name tail)
    (other : name ≠ ambient.moduleName.toList)
    (offset : d.offset = byteLength (pre ++ (importWord ++ gap)))
    (marks : Marks source d ('"' :: (name ++ ['"'])))
    (message : d = .nested d.offset d.length (.text d.offset d.length
      ("Cannot find module '" ++ String.ofList name ++ "'. Only the '" ++
        ambient.moduleName ++ "' module can be imported.")))
  /-- The use in code of a member, through an alias that an import in code gives the module. The
  finding marks the name of the member. -/
  | member {pre asName member tail : List Char} (place : MemberAt source pre asName member tail)
    (imported : ∃ pre' gap tail', ImportAt source pre' gap ambient.moduleName.toList tail' ∧
      NamedAs tail' asName)
    (offset : d.offset = byteLength (pre ++ (asName ++ [':', ':'])))
    (marks : Marks source d member)
    (message : ∃ message, d = .text d.offset d.length message ∧
      Complaint ambient (String.ofList member)
        (argumentCount (bytes source) (byteLength (pre ++ useText asName member))
          (inertRanges (bytes source))) message)

variable {ambient : Ambient}

/-- A finding about an import or a member lies in the source. -/
theorem About.within (h : About ambient source d) : Within source d := by
  cases h with
  | foreign _ _ _ marks _ => exact marks.within
  | member _ _ _ marks _ => exact marks.within

/-- A finding about an import marks its name in quotes. -/
theorem about_of_importFinding? {start : Nat} {c : ImportClause}
    (hc : (start, c) ∈ imports (inertRanges (bytes source)) source)
    (hd : importFinding? ambient start c = some d) : About ambient source d := by
  obtain ⟨pre, gap, tail, hi, hstart, hlead, -⟩ := importAt_of_mem_imports hc
  unfold importFinding? at hd
  split_ifs at hd with hname
  obtain rfl := Option.some.inj hd
  have hoffset : start + c.lead = byteLength (pre ++ (importWord ++ gap)) := by
    rw [hstart, hlead, byteLength_append pre]
  have hlength : byteLength c.name + 2 = byteLength ('"' :: (c.name ++ ['"'])) := by
    have hquote : '"'.utf8Size = 1 := by decide +kernel
    simp [byteLength, hquote]
    omega
  refine .foreign hi hname hoffset ⟨pre ++ (importWord ++ gap), tail, ?_, hoffset, hlength⟩ rfl
  rw [hi.source_eq]
  simp [importText]

/-- A finding about a member marks its name and says what is wrong with it. -/
theorem memberFinding?_eq_some {bs : List UInt8} {inert : List ByteRange} {start : Nat}
    {u : MemberUse} (h : memberFinding? ambient bs inert start u = some d) :
    ∃ message, d = .text (start + u.lead) u.member.length message ∧
      Complaint ambient (String.ofList u.member) (argumentCount bs (start + u.length) inert)
        message := by
  simp only [memberFinding?] at h
  split_ifs at h with hdeclares
  · exact ⟨_, (Option.some.inj h).symm, .undeclared (by simpa using hdeclares)⟩
  · split at h
    · cases h
    · rename_i limit hlimit
      split at h
      · rename_i n hn
        split_ifs at h with hlt
        exact ⟨_, (Option.some.inj h).symm, .crowded (by simpa using hdeclares) hlimit hn hlt⟩
      · cases h

/-- A finding about a member is about the use of one behind an alias of the ambient module. -/
theorem about_of_memberFinding? {start : Nat} {u : MemberUse}
    (hu : (start, u) ∈ searchAll memberUse source)
    (hcode : isCode (inertRanges (bytes source)) start = true)
    (halias : u.asName ∈ aliasesOf ambient.moduleName
      (imports (inertRanges (bytes source)) source))
    (hd : memberFinding? ambient (bytes source) (inertRanges (bytes source)) start u = some d) :
    About ambient source d := by
  obtain ⟨pre, tail, hm, hstart⟩ := memberAt_of_mem_searchAll hu hcode
  obtain ⟨message, rfl, hsaid⟩ := memberFinding?_eq_some hd
  have hcolon : ':'.utf8Size = 1 := by decide +kernel
  have hoffset : start + u.lead = byteLength (pre ++ (u.asName ++ [':', ':'])) := by
    simp [hstart, MemberUse.lead, byteLength, hcolon, hm.asName.byteLength_eq]
  have hbehind : start + u.length = byteLength (pre ++ useText u.asName u.member) := by
    simp [hstart, MemberUse.length, useText, byteLength, hcolon, hm.asName.byteLength_eq,
      hm.member.byteLength_eq]
    omega
  refine .member hm (namedAs_of_mem_aliasesOf halias) hoffset
    ⟨pre ++ (u.asName ++ [':', ':']), tail, ?_, hoffset, hm.member.byteLength_eq.symm⟩
    ⟨message, rfl, hbehind ▸ hsaid⟩
  rw [hm.source_eq]
  simp [useText]

/-- Every finding of the check marks the name it is about, in a match that starts in code. -/
theorem about_of_mem_moduleFindings (h : d ∈ moduleFindings ambient source) :
    About ambient source d := by
  rcases List.mem_append.1 h with h | h
  · obtain ⟨⟨start, c⟩, hc, hd⟩ := List.mem_filterMap.1 h
    exact about_of_importFinding? hc hd
  · obtain ⟨⟨start, u⟩, hu, hd⟩ := List.mem_filterMap.1 h
    obtain ⟨hmem, hused⟩ := List.mem_filter.1 hu
    simp only [Bool.and_eq_true, List.contains_iff_mem] at hused
    exact about_of_memberFinding? hmem hused.1 hused.2 hd

/-! ## Findings of the compiler -/

/-- Sorted findings stand in the order of the source. -/
theorem pairwise_sortFindings (ds : List Diagnostic) :
    (sortFindings ds).Pairwise (·.offset ≤ ·.offset) := by
  have h : (sortFindings ds).Pairwise fun a b => decide (a.offset ≤ b.offset) = true :=
    List.pairwise_mergeSort (by simpa using fun _ _ _ => Nat.le_trans)
      (by simpa using fun _ _ => Nat.le_total _ _) ds
  simpa only [decide_eq_true_eq] using h

/-- At most one name without a definition is reported, and none if nobody asks. -/
theorem nameFindings_eq (o : Options) (source : List Char) (p : Program) :
    nameFindings o source p = [] ∨
      o.strictNullChecks = true ∧ ∃ e, nameFindings o source p = [parseFinding source e] := by
  unfold nameFindings
  split_ifs with hstrict
  · split
    · exact .inl rfl
    · exact .inr ⟨hstrict, _, rfl⟩
  · exact .inl rfl

/-- What the compiler reports of a source: a fault of its grammar and nothing else, or the
findings of its checks in the order of their offsets, at most one of which is about a name without
a definition. -/
inductive Reports (o : Options) (ambient : Ambient) (source : List Char) :
    List Diagnostic → List Diagnostic → Prop
  | refused (e : ParseError) : Reports o ambient source [parseFinding source e] []
  | checked {names semantic : List Diagnostic}
    (names_eq : names = [] ∨
      o.strictNullChecks = true ∧ ∃ e, names = [parseFinding source e])
    (perm : semantic.Perm (names ++ moduleFindings ambient source))
    (sorted : semantic.Pairwise (·.offset ≤ ·.offset)) : Reports o ambient source [] semantic

/-- What the compiler reports is the fault of the parser, or what the checks of names and of
modules found. -/
theorem compile_reports (o : Options) (ambient : Ambient) (source : String) :
    Reports o ambient source.toList (compile o ambient source).grammar
      (compile o ambient source).semantic := by
  unfold compile
  dsimp only
  split
  · exact .refused _
  · exact .checked (nameFindings_eq ..) (List.mergeSort_perm _ _) (pairwise_sortFindings _)

/-- Every finding of the compiler lies in the source. -/
theorem Reports.within {o : Options} {grammar semantic : List Diagnostic}
    (h : Reports o ambient source grammar semantic) (hd : d ∈ grammar ++ semantic) :
    Within source d := by
  cases h with
  | refused e =>
    obtain rfl : d = parseFinding source e := by simpa using hd
    exact within_parseFinding source e
  | checked hnames hperm _ =>
    rcases List.mem_append.1 (hperm.mem_iff.1 hd) with hd | hd
    · rcases hnames with rfl | ⟨-, e, rfl⟩
      · cases hd
      · obtain rfl := List.mem_singleton.1 hd
        exact within_parseFinding source e
    · exact (about_of_mem_moduleFindings hd).within

/-- A compilation hands the source on and reports findings about it: one of the grammar and no
others, or those of the checks, ordered by their offsets. All of them are about stretches of the
source. Those of the check of modules mark the name that their message is about, and lie in a
match that starts in code. -/
theorem findings_in_place (o : Options) (ambient : Ambient) (source : String) :
    let c := compile o ambient source
    c.emitted = source ∧ Reports o ambient source.toList c.grammar c.semantic ∧
      c.grammar.length ≤ 1 ∧ (c.grammar ≠ [] → c.semantic = []) ∧
      c.semantic.Pairwise (·.offset ≤ ·.offset) ∧
      (∀ d ∈ c.grammar ++ c.semantic, Within source.toList d) ∧
      ∀ d ∈ moduleFindings ambient source.toList, About ambient source.toList d := by
  intro c
  have hreports : Reports o ambient source.toList c.grammar c.semantic :=
    compile_reports o ambient source
  refine ⟨compile_emitted o ambient source, hreports, ?_, ?_, ?_, fun d => hreports.within,
    fun d => about_of_mem_moduleFindings⟩
  all_goals generalize c.grammar = grammar, c.semantic = semantic at hreports
  · cases hreports with
    | refused => exact Nat.le_refl 1
    | checked => exact Nat.zero_le 1
  · cases hreports with
    | refused => exact fun _ => rfl
    | checked => exact fun h => absurd rfl h
  · cases hreports with
    | refused => exact .nil
    | checked _ _ sorted => exact sorted

end LiveScene.Compiler
