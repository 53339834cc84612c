import LiveScene.Compiler.Compilation
import LiveScene.Live.Settings
import LiveScene.Proofs.Script.Parsing
import LiveScene.Sandbox.Engine

/-!
# What compiler and sandbox accept

The compiler and the sandbox parse a source with limits of their own: the
compiler with the depths of expressions that the language comes with, the
sandbox with what its settings say, and without the word `eval`. So they accept
the same sources up to these limits, and read them as the same programs
(`accepts_alike`). Where the sandbox alone refuses a source, it is for `eval`
or at a limit of the settings; where the compiler alone does, an expression is
too deep for it and not for the settings.

Such sources there are: to the compiler `eval` is a word like any other
(`eval_refused_apart`).
-/

namespace LiveScene.Sandbox

open Text Script

/-- Why the sandbox does not run code, if it does not parse under the settings. -/
def refusal? (c : Config) (code : String) : Option ParseError :=
  match parse (parseLimits c) code.toList with
  | .error e => some e
  | .ok _ => none

/-- Code that the sandbox refuses is not run: it ends in the fault of its parser. -/
theorem evaluate_of_refusal? {c : Config} {code : String} {e : ParseError}
    (h : refusal? c code = some e) (cancelled : Bool) :
    evaluate c cancelled code =
      ⟨some (.faulted (parseFault (.ofChars code.toList) e)), []⟩ := by
  unfold refusal? at h
  split at h
  · rename_i e' hparse
    cases h
    simp only [evaluate, hparse]
  · cases h

end LiveScene.Sandbox

namespace LiveScene.Compiler

open Diagnostics Sandbox Script

/-- The compiler only has limits on the depth of expressions. -/
theorem fault_of_stops {l : ParseLimits} {f : ParseFault} (h : parseLimits.Stops l f) :
    f = .tooDeep := by
  cases h with
  | token h =>
    cases h with
    | string h => exact absurd rfl h.1
    | eval h => cases h
  | array h => exact absurd rfl h.1
  | map h => exact absurd rfl h.1
  | depth => rfl
  | functionDepth => rfl

/-- How a source is judged: what the compiler reports of its syntax, and why the sandbox does
not run it. -/
inductive Judged (c : Config) (source : List Char) : List Diagnostic → Option ParseError → Prop
  | accepted (p : Program) (h : parse parseLimits source = .ok p)
    (h' : parse (Sandbox.parseLimits c) source = .ok p) : Judged c source [] none
  | refused (e e' : ParseError) : Judged c source [parseFinding source e] (some e')
  /-- The sandbox alone refuses it, at a limit of its own. -/
  | notRun {e : ParseError} (h : (Sandbox.parseLimits c).Stops parseLimits e.fault) :
    Judged c source [] (some e)
  /-- The compiler alone does, for the depth of an expression. -/
  | reported (p : Place) (h : parseLimits.Stops (Sandbox.parseLimits c) .tooDeep) :
    Judged c source [parseFinding source ⟨.tooDeep, p⟩] none

/-- The compiler reports a fault of the syntax of a source if and only if the sandbox does not
parse it, unless one of them stops at a limit of its own that is tighter than the other's. What
both accept is the same program, and what the sandbox refuses it answers with the fault. -/
theorem accepts_alike (o : Options) (ambient : Ambient) (c : Config) (source : String) :
    Judged c source.toList (compile o ambient source).grammar (refusal? c source) ∧
      ∀ e ∈ refusal? c source, ∀ cancelled, evaluate c cancelled source =
        ⟨some (.faulted (parseFault (.ofChars source.toList) e)), []⟩ := by
  refine ⟨?_, fun e he => evaluate_of_refusal? he⟩
  have halike := parse_alike parseLimits (Sandbox.parseLimits c) source.toList
  unfold compile refusal?
  dsimp only
  generalize hc : parse parseLimits source.toList = r at halike ⊢
  generalize hs : parse (Sandbox.parseLimits c) source.toList = r' at halike ⊢
  cases halike with
  | same p => exact .accepted p hc hs
  | refused e e' => exact .refused e e'
  | @left e _ h =>
    obtain ⟨f, p⟩ := e
    obtain rfl := fault_of_stops h
    cases r' with
    | ok _ => exact .reported p h
    | error e' => exact .refused _ e'
  | right _ h =>
    cases r with
    | ok _ => exact .notRun h
    | error e => exact .refused e _

-- without a limit in the settings, the compiler alone finds an expression too deep
example :
    let source := "((((((((((((((((((((((1))))))))))))))))))))))"
    (compile .default .implicit source).grammar ≠ [] ∧
      refusal? { Config.default with maxExprDepth := 0 } source = none := by decide +kernel

/-- To the sandbox `eval` is refused; to the compiler it is a word like any other. -/
theorem eval_refused_apart :
    Live.Settings.default.fault? = none ∧
      (compile .default .implicit "eval(\"1\")").grammar = [] ∧
      refusal? Live.Settings.default.sandbox "eval(\"1\")" =
        some ⟨.lexical (.improperSymbol "eval" "reserved keyword 'eval' is disabled"), .start⟩ :=
  ⟨by decide +kernel, by decide +kernel, by decide +kernel⟩

end LiveScene.Compiler
