import LiveScene.Script.Token

/-!
# Scripts as trees

Expressions and statements as the parser leaves them. Every node that can
fail keeps the place that a failure is shown at. A chain of accesses is
nested to the left: `a.b[1].f(x)` is a call on an index on a property of `a`.

A name may be led by a path of module aliases, outermost first.
-/

namespace LiveScene.Script

/-- A value that is written out. -/
inductive Literal where
  | unit
  | bool (b : Bool)
  | int (n : Int)
  | float (x : Float)
  | char (c : Char)
  | str (s : String)
  deriving DecidableEq, Repr, Inhabited

/-- A name and where it stands. -/
structure Ident where
  name : String
  place : Place
  deriving DecidableEq, Repr, Inhabited

mutual

/-- An expression. -/
inductive Expr where
  | literal (v : Literal) (place : Place)
  /-- Text with inserted expressions. -/
  | text (parts : List Expr) (place : Place)
  | array (items : List Expr) (place : Place)
  | map (fields : List (Ident × Expr)) (place : Place)
  /-- A variable, or a constant of a module. -/
  | var (path : List Ident) (name : Ident)
  /-- The value a function was called on. -/
  | this (place : Place)
  /-- A call by name. -/
  | call (path : List Ident) (name : Ident) (args : List Expr)
  /-- An operator in front of its operand. -/
  | unary (op : String) (arg : Expr) (place : Place)
  /-- An operator between its operands. -/
  | binary (op : String) (lhs rhs : Expr) (place : Place)
  | both (lhs rhs : Expr)
  | either (lhs rhs : Expr)
  /-- The first operand unless it is `()`, else the second. -/
  | orElse (lhs rhs : Expr)
  /-- An entry; with `lenient` `()` has any entry. -/
  | index (base idx : Expr) (lenient : Bool)
  /-- A property; with `lenient` `()` has any property. -/
  | prop (base : Expr) (name : Ident) (lenient : Bool)
  /-- A call on a value. -/
  | method (base : Expr) (name : Ident) (args : List Expr) (lenient : Bool)
  /-- A function without a name and the outer variables it uses. -/
  | closure (captured : List Ident) (params : List String) (body : Stmt) (place : Place)
  /-- A statement in the place of a value. -/
  | block (body : Stmt)

/-- A statement. -/
inductive Stmt where
  | skip (place : Place)
  | expr (e : Expr)
  | bind (constant : Bool) (name : Ident) (value : Option Expr) (place : Place)
  /-- An assignment; the operator is empty for a plain one. -/
  | assign (op : String) (target value : Expr) (place : Place)
  | block (body : List Stmt) (place : Place)
  | cond (guard : Expr) (yes no : Stmt) (place : Place)
  | choice (subject : Expr) (cases : List Case) (otherwise : Option Stmt) (place : Place)
  /-- A loop with an optional guard in front of the body. -/
  | loop (guard : Option Expr) (body : Stmt) (place : Place)
  /-- A loop with the guard behind the body, which runs on while it equals `wanted`. -/
  | until (body : Stmt) (guard : Expr) (wanted : Bool) (place : Place)
  | each (name : Ident) (counter : Option Ident) (source : Expr) (body : Stmt) (place : Place)
  | leave (value : Option Expr) (place : Place)
  | next (place : Place)
  | give (value : Option Expr) (place : Place)
  | raise (value : Option Expr) (place : Place)
  | attempt (body : Stmt) (name : Option Ident) (handler : Stmt) (place : Place)
  | load (source : Expr) (name : Option Ident) (place : Place)
  /-- A function definition; it takes effect before the script runs. -/
  | define (name : String) (params : List String) (body : Stmt) (place : Place)

/-- A case of a choice: the values and the ranges it stands for, a guard, and
what it does. A range has its ends and whether the upper one belongs to it. -/
inductive Case where
  | mk (values : List Literal) (ranges : List (Int × Int × Bool)) (guard : Option Expr)
      (body : Stmt)

end

instance : Inhabited Expr := ⟨.literal .unit .start⟩
instance : Inhabited Stmt := ⟨.skip .start⟩

namespace Expr

/-- The leftmost place of an expression. -/
def startPlace : Expr → Place
  | literal _ p | text _ p | array _ p | map _ p | this p | closure _ _ _ p => p
  | var [] n | call [] n _ => n.place
  | var (a :: _) _ | call (a :: _) _ _ => a.place
  | unary _ _ p => p
  | binary _ l _ _ | both l _ | either l _ | orElse l _ => l.startPlace
  | index b _ _ | prop b _ _ | method b _ _ _ => b.startPlace
  | block s => match s with
    | .skip p | .block _ p | .cond _ _ _ p | .choice _ _ _ p | .loop _ _ p | .until _ _ _ p
    | .each _ _ _ _ p => p
    | _ => .start

/-- The place a failure of the whole expression is shown at. -/
def place : Expr → Place
  | var _ n | call _ n _ => n.place
  | binary _ _ _ p => p
  | e => e.startPlace

end Expr

mutual

/-- Whether an expression is written out in full. -/
def Expr.isConstant : Expr → Bool
  | .literal .. => true
  | .array items _ => allConstant items
  | .text parts _ => allConstant parts
  | .map fields _ => allFieldsConstant fields
  | _ => false

/-- Whether all expressions are written out in full. -/
def allConstant : List Expr → Bool
  | [] => true
  | e :: rest => e.isConstant && allConstant rest

/-- Whether all fields are written out in full. -/
def allFieldsConstant : List (Ident × Expr) → Bool
  | [] => true
  | (_, e) :: rest => e.isConstant && allFieldsConstant rest

end

/-- A whole script. -/
structure Program where
  body : List Stmt

/-- A function of a script. -/
structure FnDef where
  name : String
  params : List String
  body : Stmt

namespace Program

/-- The functions a script defines at its top. -/
def functions (p : Program) : List FnDef :=
  p.body.filterMap fun
    | .define name params body _ => some ⟨name, params, body⟩
    | _ => none

/-- What a script does, apart from defining functions. -/
def statements (p : Program) : List Stmt :=
  p.body.filter fun
    | .define .. => false
    | _ => true

end Program

namespace Stmt

/-- The place a statement is counted at. -/
def place : Stmt → Place
  | expr e => e.place
  | skip p | bind _ _ _ p | assign _ _ _ p | block _ p | cond _ _ _ p | choice _ _ _ p
  | loop _ _ p | .until _ _ _ p | each _ _ _ _ p | leave _ p | next p | give _ p | raise _ p
  | attempt _ _ _ p | load _ _ p | define _ _ _ p => p

/-- Whether a statement is a block with nothing in it. -/
def isEmpty : Stmt → Bool
  | block [] _ => true
  | _ => false

/-- Whether a statement ends by itself, without a semicolon behind it. -/
def endsItself : Stmt → Bool
  | block .. | cond .. | choice .. | loop .. | each .. | attempt .. => true
  | _ => false

end Stmt

end LiveScene.Script
