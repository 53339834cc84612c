import LiveScene.Script.Simplify
import Mathlib.Data.List.Basic

/-!
# What a script refers to

The imports of a script and the members it uses behind aliases, with those of
all functions in it. Simplifying a script adds none (`Program.keeps_simplified`,
`Program.keeps_simplifiedFunctions`).
-/

namespace LiveScene.Script

/-- What a script asks of modules. -/
inductive Reference where
  /-- An import of a module, the name of which may be written out, under an alias. -/
  | load (module : Option String) (asName : Option String)
  /-- A member behind a path of aliases. -/
  | member (path : List String) (name : String)
  deriving DecidableEq, Repr

/-- The text that an expression is, if it is written out. -/
def Expr.text? : Expr → Option String
  | .literal (.str s) _ => some s
  | _ => none

/-- The reference of a name behind a path. -/
def memberReferences : List Ident → Ident → List Reference
  | [], _ => []
  | root :: path, n => [.member ((root :: path).map (·.name)) n.name]

mutual

/-- What an expression refers to. -/
def Expr.references : Expr → List Reference
  | .text parts _ => allReferences parts
  | .array items _ => allReferences items
  | .map fields _ => fieldReferences fields
  | .var path n => memberReferences path n
  | .call path n args => memberReferences path n ++ allReferences args
  | .unary _ e _ => e.references
  | .binary _ l r _ => l.references ++ r.references
  | .both l r => l.references ++ r.references
  | .either l r => l.references ++ r.references
  | .orElse l r => l.references ++ r.references
  | .index b i _ => b.references ++ i.references
  | .prop b _ _ => b.references
  | .method b _ args _ => b.references ++ allReferences args
  | .closure _ _ body _ => body.references
  | .block s => s.references
  | .literal .. => []
  | .this _ => []

/-- What expressions refer to. -/
def allReferences : List Expr → List Reference
  | [] => []
  | e :: rest => e.references ++ allReferences rest

/-- What the values of fields refer to. -/
def fieldReferences : List (Ident × Expr) → List Reference
  | [] => []
  | (_, e) :: rest => e.references ++ fieldReferences rest

/-- What an expression refers to, if there is one. -/
def optionReferences : Option Expr → List Reference
  | none => []
  | some e => e.references

/-- What a statement refers to. -/
def Stmt.references : Stmt → List Reference
  | .expr e => e.references
  | .bind _ _ value _ => optionReferences value
  | .assign _ target value _ => target.references ++ value.references
  | .block body _ => stmtReferences body
  | .cond guard yes no _ => guard.references ++ (yes.references ++ no.references)
  | .choice subject cases otherwise _ =>
    subject.references ++ (caseReferences cases ++ elseReferences otherwise)
  | .loop guard body _ => optionReferences guard ++ body.references
  | .until body guard _ _ => body.references ++ guard.references
  | .each _ _ source body _ => source.references ++ body.references
  | .leave value _ => optionReferences value
  | .give value _ => optionReferences value
  | .raise value _ => optionReferences value
  | .attempt body _ handler _ => body.references ++ handler.references
  | .load source n _ => .load source.text? (n.map (·.name)) :: source.references
  | .define _ _ body _ => body.references
  | .skip _ => []
  | .next _ => []

/-- What statements refer to. -/
def stmtReferences : List Stmt → List Reference
  | [] => []
  | s :: rest => s.references ++ stmtReferences rest

/-- What a statement refers to, if there is one. -/
def elseReferences : Option Stmt → List Reference
  | none => []
  | some s => s.references

/-- What cases refer to. -/
def caseReferences : List Case → List Reference
  | [] => []
  | .mk _ _ guard body :: rest =>
    optionReferences guard ++ (body.references ++ caseReferences rest)

end

/-- What a script refers to. -/
def Program.references (p : Program) : List Reference := stmtReferences p.body

/-! ## References that keep to what is given -/

/-- All references are among those given. -/
def Keeps (ok : Reference → Prop) (refs : List Reference) : Prop := ∀ r ∈ refs, ok r

variable {ok : Reference → Prop}

@[simp] theorem keeps_nil : Keeps ok [] := List.forall_mem_nil _

@[simp] theorem keeps_cons {r : Reference} {refs : List Reference} :
    Keeps ok (r :: refs) ↔ ok r ∧ Keeps ok refs :=
  List.forall_mem_cons

@[simp] theorem keeps_append {refs more : List Reference} :
    Keeps ok (refs ++ more) ↔ Keeps ok refs ∧ Keeps ok more :=
  List.forall_mem_append

/-- Statements keep to what is given if each of them does. -/
theorem keeps_stmtReferences {body : List Stmt} :
    Keeps ok (stmtReferences body) ↔ ∀ s ∈ body, Keeps ok s.references := by
  induction body with
  | nil => simp [stmtReferences]
  | cons s body ih => simp [stmtReferences, ih]

/-! ## Simplifying -/

/-- A condition refers to what its parts do, also where it is known and one branch is left. -/
theorem keeps_makeCond {guard : Expr} {yes no : Stmt} {p : Place}
    (h : Keeps ok (guard.references ++ (yes.references ++ no.references))) :
    Keeps ok (makeCond guard yes no p).references := by
  obtain ⟨hg, hy, hn⟩ : Keeps ok guard.references ∧ Keeps ok yes.references ∧
      Keeps ok no.references := by simpa using h
  unfold makeCond
  split
  · exact hy
  · exact hn
  · simp only
    split_ifs
    · simpa [Stmt.references, stmtReferences] using hg
    · simpa [Stmt.references] using ⟨hg, hy, hn⟩

/-- A conjunction refers to what its sides do, also where one of them is left out. -/
theorem keeps_makeBoth {l r : Expr} (hl : Keeps ok l.references) (hr : Keeps ok r.references) :
    Keeps ok (makeBoth l r).references := by
  unfold makeBoth
  split
  · exact hr
  · exact hl
  · simpa [Expr.references] using ⟨hl, hr⟩

/-- So does a disjunction. -/
theorem keeps_makeEither {l r : Expr} (hl : Keeps ok l.references)
    (hr : Keeps ok r.references) : Keeps ok (makeEither l r).references := by
  unfold makeEither
  split
  · exact hr
  · exact hl
  · simpa [Expr.references] using ⟨hl, hr⟩

/-- Statements taken out of a block refer to what the block did. -/
theorem keeps_flatten {body : List Stmt} (h : Keeps ok (stmtReferences body)) :
    Keeps ok (stmtReferences (flatten body)) := by
  induction body using flatten.induct with
  | case1 => simpa [flatten] using h
  | case2 inner p rest hb ih =>
    rw [flatten, if_pos hb]
    simp only [stmtReferences, keeps_append] at h ⊢
    exact ⟨h.1, ih h.2⟩
  | case3 inner p rest hb ih =>
    rw [flatten, if_neg hb]
    have ⟨hinner, hrest⟩ : Keeps ok (stmtReferences inner) ∧ Keeps ok (stmtReferences rest) := by
      simpa [stmtReferences, Stmt.references] using h
    refine keeps_stmtReferences.2 fun s hs => ?_
    rcases List.mem_append.1 hs with hs | hs
    · exact keeps_stmtReferences.1 hinner s hs
    · exact keeps_stmtReferences.1 (ih hrest) s hs
  | case4 s rest hb ih =>
    rw [flatten]
    · simp only [stmtReferences, keeps_append] at h ⊢
      exact ⟨h.1, ih h.2⟩
    · exact hb

/-- Statements without an effect are dropped, and none is put in. -/
theorem dropPure_sublist (inner wanted : Bool) (body : List Stmt) :
    List.Sublist (dropPure inner wanted body) body := by
  induction body with
  | nil => exact .slnil
  | cons s body ih =>
    simp only [dropPure]
    split_ifs
    · exact ih.cons s
    · exact ih.cons_cons s

/-- The end only gives way to nothing or to a statement that does nothing. -/
theorem mem_dropEnd {inner wanted : Bool} {body : List Stmt} {s : Stmt}
    (h : s ∈ dropEnd inner wanted body) : s ∈ body ∨ s = .skip .start := by
  simp only [dropEnd] at h
  cases hrev : body.reverse with
  | nil => simp [hrev] at h
  | cons t before =>
    have hbefore : ∀ u ∈ before, u ∈ body := by
      intro u hu
      rw [← List.mem_reverse, hrev]
      exact List.mem_cons_of_mem t hu
    simp only [hrev] at h
    obtain ⟨idle, hidle⟩ : ∃ idle, (if inner then t.isLocallyPure else t.isPure) = idle :=
      ⟨_, rfl⟩
    simp only [hidle] at h
    split_ifs at h
    · cases before with
      | nil => cases h
      | cons u before =>
        simp only at h
        split_ifs at h
        · rcases List.mem_cons.1 (List.mem_reverse.1 h) with rfl | h
          · exact .inr rfl
          · exact .inl (hbefore s h)
        · exact .inl (hbefore s (List.mem_reverse.1 h))
    · exact .inl h
    · exact .inl (hbefore s (List.mem_reverse.1 h))
    · exact .inl h

/-- A block that is tidied up refers to no more than before. -/
theorem keeps_tidy {inner wanted : Bool} {body : List Stmt} (h : Keeps ok (stmtReferences body)) :
    Keeps ok (stmtReferences (tidy inner wanted body)) := by
  have honce : ∀ body, Keeps ok (stmtReferences body) →
      Keeps ok (stmtReferences (tidyOnce inner wanted body)) := by
    intro body h
    have hflat := keeps_stmtReferences.1 (keeps_flatten h)
    refine keeps_stmtReferences.2 fun s hs => ?_
    rcases mem_dropEnd hs with hs | rfl
    · exact hflat s ((dropPure_sublist ..).subset hs)
    · simp [Stmt.references]
  unfold tidy
  generalize body.length + 1 = n
  induction n generalizing body with
  | zero => exact h
  | succ n ih => exact honce _ (ih h)

section

variable {wanted : Bool} {place : Place}

/-- Simplifying goes into the parts of a statement, where there are any. -/
@[simp] theorem Stmt.simplify_bind {constant : Bool} {n : Ident} {value : Option Expr} :
    (Stmt.bind constant n value place).simplify wanted =
      .bind constant n (value.map Expr.simplify) place := by
  cases value <;> rfl

@[simp] theorem Stmt.simplify_choice {subject : Expr} {cases : List Case}
    {otherwise : Option Stmt} :
    (Stmt.choice subject cases otherwise place).simplify wanted =
      .choice subject.simplify (simplifyCases cases) (otherwise.map (Stmt.simplify true))
        place := by
  cases otherwise <;> rfl

@[simp] theorem Stmt.simplify_loop {guard : Option Expr} {body : Stmt} :
    (Stmt.loop guard body place).simplify wanted =
      .loop (guard.map Expr.simplify) (body.simplify false) place := by
  cases guard <;> rfl

@[simp] theorem Stmt.simplify_leave {value : Option Expr} :
    (Stmt.leave value place).simplify wanted = .leave (value.map Expr.simplify) place := by
  cases value <;> rfl

@[simp] theorem Stmt.simplify_give {value : Option Expr} :
    (Stmt.give value place).simplify wanted = .give (value.map Expr.simplify) place := by
  cases value <;> rfl

@[simp] theorem Stmt.simplify_raise {value : Option Expr} :
    (Stmt.raise value place).simplify wanted = .raise (value.map Expr.simplify) place := by
  cases value <;> rfl

@[simp] theorem simplifyCases_cons {values : List Literal} {ranges : List (Int × Int × Bool)}
    {guard : Option Expr} {body : Stmt} {rest : List Case} :
    simplifyCases (.mk values ranges guard body :: rest) =
      .mk values ranges (guard.map Expr.simplify) (body.simplify true) :: simplifyCases rest := by
  cases guard <;> rfl

end

/-- Only imports with the name of their module written out are kept to. -/
def Named (ok : Reference → Prop) : Prop := ∀ asName, ¬ ok (.load none asName)

/-- The name of a module that is loaded is written out, so simplifying leaves it. -/
theorem Named.text?_simplify (hn : Named ok) {source : Expr} {asName : Option String}
    (h : ok (.load source.text? asName)) : source.simplify.text? = source.text? := by
  unfold Expr.text? at h
  split at h
  · rfl
  · exact (hn _ h).elim

mutual

/-- A simplified expression refers to no more than the expression. -/
theorem Expr.keeps_simplify (hn : Named ok) : ∀ (e : Expr), Keeps ok e.references →
    Keeps ok e.simplify.references
  | .text parts _, h => keeps_simplifyAll hn parts h
  | .array items _, h => keeps_simplifyAll hn items h
  | .map fields _, h => keeps_simplifyFields hn fields h
  | .call _ _ args, h => by
    simp only [Expr.references, Expr.simplify, keeps_append] at h ⊢
    exact ⟨h.1, keeps_simplifyAll hn _ h.2⟩
  | .unary _ e _, h => Expr.keeps_simplify hn e h
  | .binary _ l r _, h => by
    simp only [Expr.references, Expr.simplify, keeps_append] at h ⊢
    exact ⟨Expr.keeps_simplify hn _ h.1, Expr.keeps_simplify hn _ h.2⟩
  | .both l r, h => by
    simp only [Expr.references, keeps_append] at h
    exact keeps_makeBoth (Expr.keeps_simplify hn _ h.1) (Expr.keeps_simplify hn _ h.2)
  | .either l r, h => by
    simp only [Expr.references, keeps_append] at h
    exact keeps_makeEither (Expr.keeps_simplify hn _ h.1) (Expr.keeps_simplify hn _ h.2)
  | .orElse l r, h => by
    simp only [Expr.references, Expr.simplify, keeps_append] at h ⊢
    exact ⟨Expr.keeps_simplify hn _ h.1, Expr.keeps_simplify hn _ h.2⟩
  | .index b i _, h => by
    simp only [Expr.references, Expr.simplify, keeps_append] at h ⊢
    exact ⟨Expr.keeps_simplify hn _ h.1, Expr.keeps_simplify hn _ h.2⟩
  | .prop b _ _, h => Expr.keeps_simplify hn b h
  | .method b _ args _, h => by
    simp only [Expr.references, Expr.simplify, keeps_append] at h ⊢
    exact ⟨Expr.keeps_simplify hn _ h.1, keeps_simplifyAll hn _ h.2⟩
  | .closure _ _ body _, h => Stmt.keeps_simplify hn body h
  | .block s, h => Stmt.keeps_simplify hn s h
  | .var .., h | .literal .., h | .this _, h => h

/-- Simplified items refer to no more than the items. -/
theorem keeps_simplifyAll (hn : Named ok) : ∀ (es : List Expr), Keeps ok (allReferences es) →
    Keeps ok (allReferences (simplifyAll es))
  | [], h => h
  | e :: es, h => by
    simp only [allReferences, simplifyAll, keeps_append] at h ⊢
    exact ⟨Expr.keeps_simplify hn _ h.1, keeps_simplifyAll hn _ h.2⟩

theorem keeps_simplifyFields (hn : Named ok) : ∀ (fields : List (Ident × Expr)),
    Keeps ok (fieldReferences fields) → Keeps ok (fieldReferences (simplifyFields fields))
  | [], h => h
  | (_, e) :: fields, h => by
    simp only [fieldReferences, simplifyFields, keeps_append] at h ⊢
    exact ⟨Expr.keeps_simplify hn _ h.1, keeps_simplifyFields hn _ h.2⟩

theorem keeps_simplifyOption (hn : Named ok) : ∀ (value : Option Expr),
    Keeps ok (optionReferences value) → Keeps ok (optionReferences (value.map Expr.simplify))
  | none, h => h
  | some e, h => Expr.keeps_simplify hn e h

/-- A simplified statement refers to no more than the statement. -/
theorem Stmt.keeps_simplify (hn : Named ok) : ∀ (s : Stmt) {wanted : Bool},
    Keeps ok s.references → Keeps ok (s.simplify wanted).references
  | .expr e, _, h => Expr.keeps_simplify hn e h
  | .assign _ target value _, _, h => by
    simp only [Stmt.references, Stmt.simplify, keeps_append] at h ⊢
    exact ⟨Expr.keeps_simplify hn _ h.1, Expr.keeps_simplify hn _ h.2⟩
  | .block body _, _, h => keeps_tidy (keeps_simplifyStmts hn body h)
  | .cond guard yes no _, _, h => by
    simp only [Stmt.references, keeps_append] at h
    refine keeps_makeCond ?_
    simp only [keeps_append]
    exact ⟨Expr.keeps_simplify hn _ h.1, Stmt.keeps_simplify hn _ h.2.1,
      Stmt.keeps_simplify hn _ h.2.2⟩
  | .choice subject cases otherwise _, _, h => by
    simp only [Stmt.simplify_choice, Stmt.references, keeps_append] at h ⊢
    exact ⟨Expr.keeps_simplify hn _ h.1, keeps_simplifyCases hn _ h.2.1,
      keeps_simplifyElse hn _ h.2.2⟩
  | .loop guard body _, _, h => by
    simp only [Stmt.simplify_loop, Stmt.references, keeps_append] at h ⊢
    exact ⟨keeps_simplifyOption hn _ h.1, Stmt.keeps_simplify hn _ h.2⟩
  | .until body guard _ _, _, h => by
    simp only [Stmt.references, Stmt.simplify, keeps_append] at h ⊢
    exact ⟨Stmt.keeps_simplify hn _ h.1, Expr.keeps_simplify hn _ h.2⟩
  | .each _ _ source body _, _, h => by
    simp only [Stmt.references, Stmt.simplify, keeps_append] at h ⊢
    exact ⟨Expr.keeps_simplify hn _ h.1, Stmt.keeps_simplify hn _ h.2⟩
  | .bind _ _ value _, _, h | .leave value _, _, h | .give value _, _, h
  | .raise value _, _, h => by
    simp only [Stmt.simplify_bind, Stmt.simplify_leave, Stmt.simplify_give, Stmt.simplify_raise,
      Stmt.references] at h ⊢
    exact keeps_simplifyOption hn _ h
  | .attempt body _ handler _, _, h => by
    simp only [Stmt.references, keeps_append] at h
    rw [Stmt.simplify]
    split_ifs
    · exact keeps_nil
    · simp only [Stmt.references, keeps_append]
      exact ⟨Stmt.keeps_simplify hn _ h.1, Stmt.keeps_simplify hn _ h.2⟩
  | .load source _ _, _, h => by
    simp only [Stmt.references, Stmt.simplify, keeps_cons] at h ⊢
    exact ⟨by rw [hn.text?_simplify h.1]; exact h.1, Expr.keeps_simplify hn _ h.2⟩
  | .define _ _ body _, _, h => Stmt.keeps_simplify hn body h
  | .skip _, _, h | .next _, _, h => h

theorem keeps_simplifyElse (hn : Named ok) : ∀ (otherwise : Option Stmt),
    Keeps ok (elseReferences otherwise) →
    Keeps ok (elseReferences (otherwise.map (Stmt.simplify true)))
  | none, h => h
  | some s, h => Stmt.keeps_simplify hn s h

/-- Simplified statements refer to no more than the statements. -/
theorem keeps_simplifyStmts (hn : Named ok) : ∀ (body : List Stmt) {wanted : Bool},
    Keeps ok (stmtReferences body) → Keeps ok (stmtReferences (simplifyStmts wanted body))
  | [], _, h => h
  | s :: body, _, h => by
    simp only [stmtReferences, simplifyStmts, keeps_append] at h ⊢
    exact ⟨Stmt.keeps_simplify hn _ h.1, keeps_simplifyStmts hn _ h.2⟩

/-- Simplified cases refer to no more than the cases. -/
theorem keeps_simplifyCases (hn : Named ok) : ∀ (cases : List Case),
    Keeps ok (caseReferences cases) → Keeps ok (caseReferences (simplifyCases cases))
  | [], h => h
  | .mk _ _ guard body :: cases, h => by
    simp only [simplifyCases_cons, caseReferences, keeps_append] at h ⊢
    exact ⟨keeps_simplifyOption hn _ h.1, Stmt.keeps_simplify hn _ h.2.1,
      keeps_simplifyCases hn _ h.2.2⟩

end

/-- What runs of a script refers to no more than the script. -/
theorem Program.keeps_simplified (hn : Named ok) {p : Program} (h : Keeps ok p.references) :
    Keeps ok (stmtReferences p.simplified) := by
  refine keeps_tidy (keeps_simplifyStmts hn _ (keeps_stmtReferences.2 fun s hs => ?_))
  exact keeps_stmtReferences.1 h s (List.mem_of_mem_filter hs)

/-- Nor do its functions. -/
theorem Program.keeps_simplifiedFunctions (hn : Named ok) {p : Program}
    (h : Keeps ok p.references) : ∀ f ∈ p.simplifiedFunctions, Keeps ok f.body.references := by
  intro f hf
  obtain ⟨g, hg, rfl⟩ := List.mem_map.1 hf
  obtain ⟨s, hs, hdef⟩ := List.mem_filterMap.1 hg
  have hkeeps := keeps_stmtReferences.1 h s hs
  cases s with
  | define name params body place =>
    obtain rfl := Option.some.inj hdef
    exact Stmt.keeps_simplify hn body hkeeps
  | _ => cases hdef

end LiveScene.Script
