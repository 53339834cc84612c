import LiveScene.Script.Tree

/-!
# Leaving out what has no effect

Before a script runs, statements that only look at variables and literals
are left out where nobody asks for their value. So a variable that does not
exist goes unnoticed there. An `if` with nothing to do on either side keeps
its condition only, and a `try` whose body has no effect is left out.

A block is simplified together with all that is in it. `wanted` says whether
its value is asked for; the value is that of its last statement. Inside of
blocks and functions a variable that is bound last, to something without
effect, is left out too.
-/

namespace LiveScene.Script

mutual

/-- Whether evaluating an expression has no effect, as far as its form shows. -/
def Expr.isPure : Expr → Bool
  | .literal .. | .var .. => true
  | .text parts _ => allPure parts
  | .array items _ => allPure items
  | .map fields _ => allFieldsPure fields
  | .both l r | .either l r | .orElse l r => l.isPure && r.isPure
  | .block s => s.isPure
  | .closure captured _ _ _ => captured.isEmpty
  | _ => false

/-- Whether evaluating the expressions has no effect. -/
def allPure : List Expr → Bool
  | [] => true
  | e :: rest => e.isPure && allPure rest

/-- Whether evaluating the values of the fields has no effect. -/
def allFieldsPure : List (Ident × Expr) → Bool
  | [] => true
  | (_, e) :: rest => e.isPure && allFieldsPure rest

/-- Whether a statement has no effect. -/
def Stmt.isPure : Stmt → Bool
  | .skip _ => true
  | .expr e => e.isPure
  | .block body _ => allStmtsPure body
  | .cond guard yes no _ => guard.isPure && yes.isPure && no.isPure
  | .choice subject cases otherwise _ =>
    subject.isPure && allCasesPure cases &&
      (match otherwise with
        | some s => s.isPure
        | none => true)
  | .loop (some (.literal (.bool false) _)) _ _ => true
  | .each _ _ source body _ => source.isPure && body.isPure
  | .attempt body _ handler _ => body.isPure && handler.isPure
  | _ => false

/-- Whether the statements have no effect. -/
def allStmtsPure : List Stmt → Bool
  | [] => true
  | s :: rest => s.isPure && allStmtsPure rest

/-- Whether the cases have no effect. -/
def allCasesPure : List Case → Bool
  | [] => true
  | .mk _ _ guard body :: rest =>
    (match guard with
      | some e => e.isPure
      | none => true) && body.isPure && allCasesPure rest

end

namespace Stmt

/-- Whether a statement has no effect but on variables and aliases in its block. -/
def isLocallyPure : Stmt → Bool
  | bind _ _ value _ =>
    match value with
    | some e => e.isPure
    | none => true
  | load source _ _ => source.isPure
  | s => s.isPure

/-- Whether a statement may be the value of its block. -/
def hasValue : Stmt → Bool
  | cond .. | choice .. | block .. | expr _ => true
  | _ => false

/-- Whether a statement binds names in its block. -/
def binds : Stmt → Bool
  | bind .. | load .. | define .. => true
  | _ => false

/-- Whether what comes before a statement may matter for what is behind. -/
def anchors (inner : Bool) (s : Stmt) : Bool :=
  let pure_ := if inner then s.isLocallyPure else s.isPure
  !pure_ ||
    (match s with
      | bind _ _ value _ =>
        match value with
        | some e => e.isConstant
        | none => true
      | expr e => !e.isConstant
      | load source _ _ => !source.isConstant
      | _ => false)

end Stmt

/-- The statements with those of nested blocks in their place, as far as the
blocks bind no names. -/
def flatten : List Stmt → List Stmt
  | [] => []
  | .block body p :: rest =>
    if body.any Stmt.binds then .block body p :: flatten rest else body ++ flatten rest
  | s :: rest => s :: flatten rest

/-- The statements without those that have no effect. The last one stays if
its value is wanted. In an inner block, a statement with an effect on the
block alone goes too, unless one that matters for others comes later. -/
def dropPure (inner wanted : Bool) : List Stmt → List Stmt
  | [] => []
  | s :: rest =>
    let last := rest.isEmpty
    let pureHere := s.isPure || (inner && s.isLocallyPure && !rest.any (·.anchors inner))
    if pureHere && !(wanted && last) then dropPure inner wanted rest
    else s :: dropPure inner wanted rest

/-- The statements without an end that has neither effect nor value. -/
def dropEnd (inner wanted : Bool) (stmts : List Stmt) : List Stmt :=
  let isPure (s : Stmt) := if inner then s.isLocallyPure else s.isPure
  match stmts.reverse with
  | [] => []
  | s :: before =>
    if wanted then
      if !s.hasValue && isPure s then
        match before with
        | [] => []
        | t :: _ => if t.hasValue then (.skip .start :: before).reverse else before.reverse
      else stmts
    else if isPure s then before.reverse
    else stmts

/-- One round of leaving out. -/
def tidyOnce (inner wanted : Bool) (stmts : List Stmt) : List Stmt :=
  dropEnd inner wanted (dropPure inner wanted (flatten stmts))

/-- Leave out until nothing changes, which takes no more rounds than there are statements. -/
def tidy (inner wanted : Bool) (stmts : List Stmt) : List Stmt :=
  Nat.repeat (tidyOnce inner wanted) (stmts.length + 1) stmts

/-- An `if`, or its condition alone if it does nothing. -/
def makeCond (guard : Expr) (yes no : Stmt) (place : Place) : Stmt :=
  let empty : Stmt → Bool
    | .block [] _ | .skip _ => true
    | _ => false
  match guard with
  | .literal (.bool true) _ => yes
  | .literal (.bool false) _ => no
  | guard =>
    if empty yes && empty no then .block [.expr guard, .skip place] place
    else .cond guard yes no place

/-- A conjunction without an operand that is known to be true. -/
def makeBoth : Expr → Expr → Expr
  | .literal (.bool true) _, r => r
  | l, .literal (.bool true) _ => l
  | l, r => .both l r

/-- A disjunction without an operand that is known to be false. -/
def makeEither : Expr → Expr → Expr
  | .literal (.bool false) _, r => r
  | l, .literal (.bool false) _ => l
  | l, r => .either l r

mutual

/-- An expression simplified. -/
def Expr.simplify : Expr → Expr
  | .text parts p => .text (simplifyAll parts) p
  | .array items p => .array (simplifyAll items) p
  | .map fields p => .map (simplifyFields fields) p
  | .call path n args => .call path n (simplifyAll args)
  | .unary op e p => .unary op e.simplify p
  | .binary op l r p => .binary op l.simplify r.simplify p
  | .both l r => makeBoth l.simplify r.simplify
  | .either l r => makeEither l.simplify r.simplify
  | .orElse l r => .orElse l.simplify r.simplify
  | .index b i q => .index b.simplify i.simplify q
  | .prop b n q => .prop b.simplify n q
  | .method b n args q => .method b.simplify n (simplifyAll args) q
  | .closure captured params body p => .closure captured params (body.simplify true) p
  | .block s => .block (s.simplify true)
  | e => e

/-- Expressions simplified. -/
def simplifyAll : List Expr → List Expr
  | [] => []
  | e :: rest => e.simplify :: simplifyAll rest

/-- The values of fields simplified. -/
def simplifyFields : List (Ident × Expr) → List (Ident × Expr)
  | [] => []
  | (n, e) :: rest => (n, e.simplify) :: simplifyFields rest

/-- A statement simplified, the value of which is wanted or not. -/
def Stmt.simplify (wanted : Bool) : Stmt → Stmt
  | .expr e => .expr e.simplify
  | .bind c n value p =>
    .bind c n (match value with
      | some e => some e.simplify
      | none => none) p
  | .assign op target value p => .assign op target.simplify value.simplify p
  | .block body p => .block (tidy true wanted (simplifyStmts wanted body)) p
  | .cond guard yes no p =>
    makeCond guard.simplify (yes.simplify wanted) (no.simplify wanted) p
  | .choice subject cases otherwise p =>
    .choice subject.simplify (simplifyCases cases)
      (match otherwise with
        | some s => some (s.simplify true)
        | none => none) p
  | .loop guard body p =>
    .loop (match guard with
      | some e => some e.simplify
      | none => none) (body.simplify false) p
  | .until body guard w p => .until (body.simplify false) guard.simplify w p
  | .each n c source body p => .each n c source.simplify (body.simplify false) p
  | .leave value p =>
    .leave (match value with
      | some e => some e.simplify
      | none => none) p
  | .give value p =>
    .give (match value with
      | some e => some e.simplify
      | none => none) p
  | .raise value p =>
    .raise (match value with
      | some e => some e.simplify
      | none => none) p
  | .attempt body n handler p =>
    if body.isPure then .skip p
    else .attempt (body.simplify false) n (handler.simplify false) p
  | .load source n p => .load source.simplify n p
  | .define n params body p => .define n params (body.simplify true) p
  | s => s

/-- Statements simplified. -/
def simplifyStmts (wanted : Bool) : List Stmt → List Stmt
  | [] => []
  | s :: rest => s.simplify wanted :: simplifyStmts wanted rest

/-- Cases simplified. -/
def simplifyCases : List Case → List Case
  | [] => []
  | .mk values ranges guard body :: rest =>
    .mk values ranges (match guard with
      | some e => some e.simplify
      | none => none) (body.simplify true) :: simplifyCases rest

end

/-- What a script does, simplified. -/
def Program.simplified (p : Program) : List Stmt :=
  tidy false true (simplifyStmts true p.statements)

/-- The functions of a script, simplified. -/
def Program.simplifiedFunctions (p : Program) : List FnDef :=
  p.functions.map fun f => { f with body := f.body.simplify true }

end LiveScene.Script
