import LiveScene.Script.Tree
import LiveScene.Script.ParseFault

/-!
# Names that are not defined

`checkNames` looks for the first variable or module alias, in the order of
the source, that nothing in scope defines. Blocks, loops and handlers have
scopes of their own. A function sees its parameters and the aliases imported
above it. A closure is judged by the outer names it uses, each at the place
of its first use. Names behind `::` or a dot and functions that are called
are not looked at.
-/

namespace LiveScene.Script

/-- The names in scope. -/
structure Known where
  vars : List String
  modules : List String
  functions : List String
  deriving Inhabited

namespace Known

/-- With one variable more. -/
def bind (k : Known) (name : String) : Known := { k with vars := name :: k.vars }

/-- With a variable more if there is one. -/
def bind? (k : Known) (name : Option Ident) : Known :=
  match name with
  | some n => k.bind n.name
  | none => k

/-- A variable that is in scope, or the name of a function. -/
def lookVariable (k : Known) (n : Ident) : Except ParseError Unit :=
  if k.vars.contains n.name || k.functions.contains n.name then .ok ()
  else .error ⟨.undefinedVariable n.name, n.place⟩

/-- An alias that is in scope. -/
def lookAlias (k : Known) (n : Ident) : Except ParseError Unit :=
  if k.modules.contains n.name then .ok ()
  else .error ⟨.undefinedModule n.name, n.place⟩

end Known

mutual

/-- All names an expression uses are known. -/
def checkExpr (k : Known) : Expr → Except ParseError Unit
  | .literal .. | .this _ => .ok ()
  | .text parts _ => checkExprs k parts
  | .array items _ => checkExprs k items
  | .map fields _ => checkFields k fields
  | .var [] n => k.lookVariable n
  | .var (a :: _) _ => k.lookAlias a
  | .call [] _ args => checkExprs k args
  | .call (a :: _) _ args => do
    checkExprs k args
    k.lookAlias a
  | .unary _ e _ => checkExpr k e
  | .binary _ l r _ | .both l r | .either l r | .orElse l r => do
    checkExpr k l
    checkExpr k r
  | .index b i _ => do
    checkExpr k b
    checkExpr k i
  | .prop b _ _ => checkExpr k b
  | .method b _ args _ => do
    checkExpr k b
    checkExprs k args
  | .closure captured _ _ _ => captured.forM k.lookVariable
  | .block s => do
    let _ ← checkStmt k s

/-- All names of the expressions are known. -/
def checkExprs (k : Known) : List Expr → Except ParseError Unit
  | [] => .ok ()
  | e :: rest => do
    checkExpr k e
    checkExprs k rest

/-- All names of the values of the fields are known. -/
def checkFields (k : Known) : List (Ident × Expr) → Except ParseError Unit
  | [] => .ok ()
  | (_, e) :: rest => do
    checkExpr k e
    checkFields k rest

/-- All names of the expression, if there is one, are known. -/
def checkOption (k : Known) : Option Expr → Except ParseError Unit
  | none => .ok ()
  | some e => checkExpr k e

/-- All names a statement uses are known; answers with what is known behind it. -/
def checkStmt (k : Known) : Stmt → Except ParseError Known
  | .skip _ | .next _ => .ok k
  | .expr e => do
    checkExpr k e
    return k
  | .bind _ n value _ => do
    checkOption k value
    return k.bind n.name
  | .assign _ target value _ => do
    checkExpr k target
    checkExpr k value
    return k
  | .block body _ => do
    checkStmts k body
    return k
  | .cond guard yes no _ => do
    checkExpr k guard
    let _ ← checkStmt k yes
    let _ ← checkStmt k no
    return k
  | .choice subject cases otherwise _ => do
    checkExpr k subject
    checkCases k cases
    match otherwise with
    | some s =>
      let _ ← checkStmt k s
    | none => pure ()
    return k
  | .loop guard body _ => do
    checkOption k guard
    let _ ← checkStmt k body
    return k
  | .until body guard _ _ => do
    let _ ← checkStmt k body
    checkExpr k guard
    return k
  | .each n counter source body _ => do
    checkExpr k source
    let _ ← checkStmt ((k.bind? counter).bind n.name) body
    return k
  | .leave value _ | .give value _ | .raise value _ => do
    checkOption k value
    return k
  | .attempt body n handler _ => do
    let _ ← checkStmt k body
    let _ ← checkStmt (k.bind? n) handler
    return k
  | .load source n _ => do
    checkExpr k source
    match n with
    | some n => return { k with modules := n.name :: k.modules }
    | none => return k
  | .define name params body _ => do
    let _ ← checkStmt { k with vars := params } body
    return { k with functions := name :: k.functions }

/-- All names of the statements are known, each to those behind it. -/
def checkStmts (k : Known) : List Stmt → Except ParseError Unit
  | [] => .ok ()
  | s :: rest => do
    let k ← checkStmt k s
    checkStmts k rest

/-- All names of the cases are known. -/
def checkCases (k : Known) : List Case → Except ParseError Unit
  | [] => .ok ()
  | .mk _ _ guard body :: rest => do
    checkOption k guard
    let _ ← checkStmt k body
    checkCases k rest

end

/-- The first name of a program that is not defined. -/
def checkNames (p : Program) : Except ParseError Unit := checkStmts ⟨[], [], []⟩ p.body

end LiveScene.Script
