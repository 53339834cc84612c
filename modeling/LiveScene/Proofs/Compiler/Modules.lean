import LiveScene.Proofs.Compiler.Imports
import LiveScene.Proofs.Script.Worlds
import LiveScene.Sandbox.Engine

/-!
# The check of imports and the sandbox

The declarations that the check goes by are those of the sandbox: its module
has exactly the functions that are declared (`declares_iff`), and is the one
that can be imported. So what the check sees of a source without findings the
sandbox has: if the imports of other modules and the uses of what the module
lacks are written as the check reads them, then there are none, and evaluating
the source misses no module and no function. It goes as it would with any other
modules and functions besides (`clean_importable`).

The sandbox reads the tokens of a source and the check its text. An import
whose parts stand apart by a comment is one to the sandbox and none to the
check (`comment_hides_module`).
-/

namespace LiveScene.Sandbox

open Text Script

/-! ## Evaluation among other modules -/

/-- Evaluate code with other modules to import than those of the sandbox. -/
def evaluateAmong (modules : List (String × ModuleFunctions)) (c : Config) (cancelled : Bool)
    (code : String) : Evaluation :=
  let cs := code.toList
  let index := LineIndex.ofChars cs
  match parse (parseLimits c) cs with
  | .error e => ⟨some (.faulted (parseFault index e)), []⟩
  | .ok p =>
    let w : World := ⟨runLimits c, modules, [], cancelled⟩
    let (ending, s) := run w p cs.length
    let outcome := match ending with
      | .value v => some (.completed (collectExports (boundValues s) v))
      | .failed f => some (.faulted (runFault index f))
      | .endless => none
    ⟨outcome, s.printed.reverse⟩

/-- Among its own modules the sandbox evaluates as it does. -/
theorem evaluateAmong_importable : evaluateAmong importable = evaluate := rfl

/-- The module for want of which evaluating code fails. -/
def missingModule? (c : Config) (cancelled : Bool) (code : String) : Option String :=
  match parse (parseLimits c) code.toList with
  | .error _ => none
  | .ok p =>
    match run ⟨runLimits c, importable, [], cancelled⟩ p code.toList.length with
    | (.failed f, _) =>
      match f.cause with
      | .moduleNotFound m => some m
      | _ => none
    | _ => none

/-- Among the modules is that of implicit scenes, with all its functions. -/
def ServesScenes (modules : List (String × ModuleFunctions)) : Prop :=
  ∃ functions, modules.lookup Ambient.implicit.moduleName = some functions ∧
    ∀ name args, Ambient.implicit.declares name = true →
      functions name args = SceneModule.call name args

/-- The modules of the sandbox serve scenes. -/
theorem servesScenes_importable : ServesScenes importable :=
  ⟨SceneModule.call, rfl, fun _ _ _ => rfl⟩

namespace SceneModule

/-- What a function builds is the value of a JSON form. -/
def BuildsJson (r : Built Value) : Prop := ∀ v, r = .ok v → ∃ j, v = .ofJson j

/-- A step that may fail leaves the value to what follows. -/
theorem buildsJson_bind {α : Type} {r : Built α} {next : α → Built Value}
    (h : ∀ a, BuildsJson (next a)) : BuildsJson (r >>= next) := by
  intro v hv
  cases r with
  | ok a => exact h a v hv
  | error m => cases hv

theorem buildsJson_ofJson {j : Json} : BuildsJson (pure (.ofJson j)) := by
  rintro _ ⟨⟩
  exact ⟨j, rfl⟩

theorem buildsJson_giveNode {n : Built Scene.Node} : BuildsJson (giveNode n) := by
  intro v hv
  cases n with
  | ok n => exact buildsJson_ofJson v hv
  | error m => cases hv

/-- The functions of the module only build values of JSON forms. -/
theorem call_buildsJson {name : String} {args : List Value} :
    ∀ r ∈ call name args, BuildsJson r := by
  unfold call
  split <;> (try split_ifs) <;> rintro _ ⟨⟩
  all_goals first
    | exact buildsJson_giveNode
    | exact buildsJson_bind fun _ => buildsJson_ofJson
    | exact buildsJson_bind fun _ => buildsJson_bind fun _ => buildsJson_ofJson

end SceneModule

end LiveScene.Sandbox

namespace LiveScene.Compiler

open Text Sandbox Script

/-- The module of the sandbox has the functions that are declared, and no others. -/
theorem declares_iff (function : String) : Ambient.implicit.declares function = true ↔
    ∃ args, (SceneModule.call function args).isSome = true := by
  have hdeclares : Ambient.implicit.declares function = true ↔
      function ∈ Ambient.implicit.functions := by simp [Ambient.declares]
  rw [hdeclares]
  constructor
  · intro h
    have hcalls : ∀ f ∈ Ambient.implicit.functions, ∃ n ∈ List.range 5,
        (SceneModule.call f (List.replicate n .unit)).isSome = true := by decide +kernel
    obtain ⟨n, -, hn⟩ := hcalls function h
    exact ⟨_, hn⟩
  · rintro ⟨args, h⟩
    unfold SceneModule.call at h
    split at h
    all_goals first | decide | cases h

/-- Whatever module the sandbox has is that of scenes. -/
theorem importable_lookup {m : String} {functions : ModuleFunctions}
    (h : importable.lookup m = some functions) : functions = SceneModule.call := by
  obtain ⟨l₁, l₂, heq, -⟩ := List.lookup_eq_some_iff.1 h
  have hmem : (m, functions) ∈ importable := by simp [heq]
  exact congrArg Prod.snd (List.mem_singleton.1 hmem)

/-- Code that fails for want of a module parses, and its run ends in that fault. -/
theorem exists_of_missingModule? {c : Config} {cancelled : Bool} {source m : String}
    (h : missingModule? c cancelled source = some m) :
    ∃ p f s, parse (Sandbox.parseLimits c) source.toList = .ok p ∧
      run ⟨runLimits c, importable, [], cancelled⟩ p source.toList.length = (.failed f, s) ∧
      f.cause = .moduleNotFound m := by
  unfold missingModule? at h
  split at h
  · cases h
  · rename_i p hp
    split at h
    · rename_i f s hrun
      split at h
      · rename_i m' hcause
        cases h
        exact ⟨p, f, s, hp, hrun, hcause⟩
      · cases h
    · cases h

/-- A source without diagnostics has none of either kind. -/
theorem grammar_semantic_of_clean {c : Compilation} (h : c.hasDiagnostics = false) :
    c.grammar = [] ∧ c.semantic = [] := by
  simpa [Compilation.hasDiagnostics] using h

/-! ## Sources as the check reads them -/

/-- What the sandbox lacks stands in the source of a script as the check reads it: each import
of another module, and each use of a member that is not declared, along with the import whose
alias it is used through. How all else is written is left open. -/
structure Spelled (source : List Char) (p : Program) : Prop where
  load : ∀ m asName, .load m asName ∈ p.references → m ≠ some Ambient.implicit.moduleName →
    ∃ pre gap name tail, ImportAt source pre gap name tail ∧ m = some (String.ofList name)
  use : ∀ a n, .load (some Ambient.implicit.moduleName) (some a) ∈ p.references →
    .member [a] n ∈ p.references → Ambient.implicit.declares n = false →
    ∃ pre gap tail pre' tail', NamedAs tail a.toList ∧
      ImportAt source pre gap Ambient.implicit.moduleName.toList tail ∧
      UseAt source pre' a.toList n.toList tail'

section

variable {o : Options} {source : String} {p : Program}

/-- What is imported in a source without findings is the module of the sandbox. -/
theorem Spelled.module_eq (hs : Spelled source.toList p)
    (hclean : (compile o .implicit source).hasDiagnostics = false) (hl : Legible source.toList)
    {m asName : Option String} (h : .load m asName ∈ p.references) :
    m = some Ambient.implicit.moduleName := by
  obtain ⟨hgrammar, hsemantic⟩ := grammar_semantic_of_clean hclean
  by_contra hne
  obtain ⟨pre, gap, name, tail, hi, rfl⟩ := hs.load m asName h hne
  have hname : name ≠ Ambient.implicit.moduleName.toList := by
    rintro rfl
    exact hne (by rw [String.ofList_toList])
  obtain ⟨d, hd, -⟩ := hi.exists_finding hgrammar hl hname
  rw [hsemantic] at hd
  cases hd

/-- What is used behind an alias in a source without findings is declared. -/
theorem Spelled.declares (hs : Spelled source.toList p)
    (hclean : (compile o .implicit source).hasDiagnostics = false) (hl : Legible source.toList)
    {m : Option String} {a n : String} (hload : .load m (some a) ∈ p.references)
    (huse : .member [a] n ∈ p.references) : Ambient.implicit.declares n = true := by
  obtain ⟨hgrammar, hsemantic⟩ := grammar_semantic_of_clean hclean
  obtain rfl := hs.module_eq hclean hl hload
  by_contra hn
  have hlacks : Ambient.implicit.declares n = false := by simpa using hn
  obtain ⟨pre, gap, tail, pre', tail', has, hi, hu⟩ := hs.use a n hload huse hlacks
  obtain ⟨d, hd, -⟩ := hu.exists_finding hi has hgrammar hl rfl
    (by rw [String.ofList_toList]; exact hlacks)
  rw [hsemantic] at hd
  cases hd

/-- All modules with that of the sandbox are the same for a source without findings. -/
theorem Spelled.suits (hs : Spelled source.toList p)
    (hclean : (compile o .implicit source).hasDiagnostics = false) (hl : Legible source.toList)
    {modules : List (String × ModuleFunctions)} (hm : ServesScenes modules) :
    Suits (· ∈ p.references) importable modules where
  named asName h := by cases hs.module_eq hclean hl h
  load m asName h := by
    obtain ⟨functions, hlookup, -⟩ := hm
    obtain rfl := Option.some.inj (hs.module_eq hclean hl h)
    exact ⟨rfl, by rw [hlookup]; rfl⟩
  member a m n huse hload args := by
    obtain ⟨functions, hlookup, hsame⟩ := hm
    obtain rfl := Option.some.inj (hs.module_eq hclean hl hload)
    rw [callOf, hlookup]
    exact hsame n args (hs.declares hclean hl hload huse)
  result m n args v h _ := by
    obtain ⟨functions, hlookup, hcall⟩ := Option.bind_eq_some_iff.1 h
    obtain rfl := importable_lookup hlookup
    obtain ⟨j, rfl⟩ := SceneModule.call_buildsJson _ hcall v rfl
    exact Value.keeps_ofJson j

/-- The check of imports is sound for what it reads. A source without findings, in which
imports of other modules and uses of what is not declared would be written as the check reads
them, evaluates as it would with any other modules and functions besides. It only fails for
want of a module where it uses an alias that is not in scope. -/
theorem clean_importable (o : Options) {source : String}
    (hclean : (compile o .implicit source).hasDiagnostics = false) (hl : Legible source.toList)
    (c : Config) (cancelled : Bool)
    (hs : ∀ p, parse (Sandbox.parseLimits c) source.toList = .ok p → Spelled source.toList p) :
    (∀ modules, ServesScenes modules →
      evaluateAmong modules c cancelled source = evaluate c cancelled source) ∧
    ∀ m, missingModule? c cancelled source = some m →
      ∃ p path n, parse (Sandbox.parseLimits c) source.toList = .ok p ∧
        .member path n ∈ p.references ∧ m = "::".intercalate path := by
  refine ⟨fun modules hm => ?_, fun m hmissing => ?_⟩
  · rw [← evaluateAmong_importable, evaluateAmong, evaluateAmong]
    cases hp : parse (Sandbox.parseLimits c) source.toList with
    | error e => rfl
    | ok p =>
      have hsuits := (hs p hp).suits hclean hl hm
      have hrun := (run_withModules (w := ⟨runLimits c, importable, [], cancelled⟩) hsuits
        (fun _ h => h) source.toList.length).1
      simp only [World.withModules] at hrun
      simp only [hrun]
  · obtain ⟨p, f, s, hp, hrun, hcause⟩ := exists_of_missingModule? hmissing
    have hsuits := (hs p hp).suits hclean hl servesScenes_importable
    have hkeeps := (run_withModules hsuits (fun _ h => h) _).2 f s hrun
    rw [hcause] at hkeeps
    obtain ⟨path, n, hmem, rfl⟩ := hkeeps
    exact ⟨p, path, n, hp, hmem, rfl⟩

end

/-- A script that imports the module across a comment, which the check does not read, and keeps
a function that uses the alias beyond the alias. -/
def outlivedScript : String :=
  "let f = (); \x7b import/**/\"implicit\" as i; f = || i::circle(0, 0, 1); \x7d f.call()"

/-- The script refers to the module under its alias and to one member. -/
theorem references_outlivedScript {p : Program}
    (hp : parse (Sandbox.parseLimits .default) outlivedScript.toList = .ok p) :
    p.references = [.load (some "implicit") (some "i"), .member ["i"] "circle"] := by
  have h : (parse (Sandbox.parseLimits .default) outlivedScript.toList).toOption.map
      Program.references = some [.load (some "implicit") (some "i"), .member ["i"] "circle"] := by
    decide +kernel
  rw [hp] at h
  exact Option.some.inj h

/-- It imports no other module and uses nothing that is not declared. -/
theorem spelled_outlivedScript {p : Program}
    (hp : parse (Sandbox.parseLimits .default) outlivedScript.toList = .ok p) :
    Spelled outlivedScript.toList p where
  load m asName h hne := by
    have hload : m = some "implicit" ∧ asName = some "i" := by
      simpa [references_outlivedScript hp] using h
    exact (hne hload.1).elim
  use a n hload h hlacks := by
    have huse : a = "i" ∧ n = "circle" := by simpa [references_outlivedScript hp] using h
    rw [huse.2] at hlacks
    exact absurd hlacks (by decide +kernel)

/-- Other modules make no difference to the script, which fails for want of the alias. -/
theorem clean_importable_outlived :
    (compile .default .implicit outlivedScript).hasDiagnostics = false ∧
      Legible outlivedScript.toList ∧
      evaluateAmong (("fs", fun _ _ => none) :: importable) .default false outlivedScript =
        evaluate .default false outlivedScript ∧
      missingModule? .default false outlivedScript = some "i" ∧
      ∃ p path n, parse (Sandbox.parseLimits .default) outlivedScript.toList = .ok p ∧
        .member path n ∈ p.references ∧ "i" = "::".intercalate path := by
  have hclean : (compile .default .implicit outlivedScript).hasDiagnostics = false := by
    decide +kernel
  have hl : Legible outlivedScript.toList := ⟨by decide +kernel, by decide +kernel⟩
  have hserves : ServesScenes (("fs", fun _ _ => none) :: importable) :=
    ⟨SceneModule.call, rfl, fun _ _ _ => rfl⟩
  have hmissing : missingModule? .default false outlivedScript = some "i" := by decide +kernel
  obtain ⟨hsame, honly⟩ := clean_importable .default hclean hl .default false
    fun _ => spelled_outlivedScript
  exact ⟨hclean, hl, hsame _ hserves, hmissing, honly "i" hmissing⟩

/-- The message of the fault that code ends in. -/
def faultMessage? (e : Evaluation) : Option String :=
  match e.outcome with
  | some (.faulted f) => some f.message
  | _ => none

/-- A comment between `import` and the name hides the import from the check, not from the
sandbox. -/
theorem comment_hides_module :
    let source := "import/**/\"fs\" as f; 1"
    (compile .default .implicit source).hasDiagnostics = false ∧
      (compile .default .implicit source).emitted = source ∧
      faultMessage? (evaluate .default false source) = some "Module not found: fs" :=
  ⟨by decide +kernel, compile_emitted _ _ _, by decide +kernel⟩

end LiveScene.Compiler
