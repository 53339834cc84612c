import LiveScene.Proofs.Script.Lockstep

/-!
# Parsing under other limits

The functions of the parser call each other with less fuel, so all of them go
in lockstep by one induction on it (`InStep.all`). Each has a lemma for the
step. Some are only called where the token ahead is known, and take it without
a look.

In the proofs `jp` is what a function goes on with behind a branch, for any
result of the branch.
-/

namespace LiveScene.Script

/-- Parsing to a depth goes in lockstep. -/
structure InStep (fuel : Nat) : Prop where
  expr : ∀ {a} s, Lockstep a (parseExpr fuel s)
  binary : ∀ {a} s parent lhs, Lockstep a (parseBinary fuel s parent lhs)
  unary : ∀ {a} s, Lockstep a (parseUnary fuel s)
  primary : ∀ {a} s, Lockstep a (parsePrimary fuel s)
  accesses : ∀ {a} s lhs, Lockstep a (parsePostfix fuel s lhs)
  args : ∀ {a} s function, Lockstep a (parseArgs fuel s function)
  argsFrom : ∀ {a} s function done, Lockstep a (parseArgsFrom fuel s function done)
  group : ∀ {t} s, Lockstep (some t) (parseGroup fuel s)
  text : ∀ {t} s, Lockstep (some t) (parseText fuel s)
  textFrom : ∀ {a} s done, Lockstep a (parseTextFrom fuel s done)
  array : ∀ {t} s, Lockstep (some t) (parseArray fuel s)
  items : ∀ {a} s count done, Lockstep a (parseItems fuel s count done)
  map : ∀ {t} s, Lockstep (some t) (parseMap fuel s)
  fields : ∀ {a} s done, Lockstep a (parseFields fuel s done)
  closure : ∀ t, Lockstep (some t) (parseClosure fuel)
  closureParams : ∀ {a} done, Lockstep a (parseClosureParams fuel done)
  stmt : ∀ {a} s, Lockstep a (parseStmt fuel s)
  result : ∀ {a} s, Lockstep a (parseResult fuel s)
  exprStmt : ∀ {a} s, Lockstep a (parseExprStmt fuel s)
  block : ∀ {a} s, Lockstep a (parseBlock fuel s)
  stmts : ∀ {a} s done, Lockstep a (parseStmts fuel s done)
  cond : ∀ {t} s, Lockstep (some t) (parseIf fuel s)
  loop : ∀ {t} s, Lockstep (some t) (parseLoop fuel s)
  doLoop : ∀ {t} s, Lockstep (some t) (parseDo fuel s)
  each : ∀ {t} s, Lockstep (some t) (parseFor fuel s)
  choice : ∀ {t} s, Lockstep (some t) (parseSwitch fuel s)
  cases : ∀ {a} s done otherwise, Lockstep a (parseCases fuel s done otherwise)
  caseValues : ∀ {a} s done, Lockstep a (parseCaseValues fuel s done)
  binding : ∀ {t} s constant, Lockstep (some t) (parseLet fuel s constant)
  load : ∀ {t} s, Lockstep (some t) (parseImport fuel s)
  attempt : ∀ {t} s, Lockstep (some t) (parseTry fuel s)
  define : ∀ t, Lockstep (some t) (parseFn fuel)
  params : ∀ {a} function done, Lockstep a (parseParams fuel function done)

variable {fuel : Nat} {a : Option Located} {t : Located}

namespace InStep

/-- Without fuel every function fails at the token ahead. -/
theorem zero : InStep 0 := by
  constructor <;> intros <;> exact .failHere _

variable (h : InStep fuel) (s : Setting)

include h

/-! ## Expressions -/

theorem expr_succ : Lockstep a (parseExpr (fuel + 1) s) := by
  rw [parseExpr]
  exact .deeper fun s => .bind (h.unary s) fun lhs => h.binary s 1 lhs

/-- No token that may be refused is an operator, so both stop in front of it. Behind an operator
they read its operand first, and then see whether the next operator binds more tightly. -/
theorem binary_succ (parent : Nat) (lhs : Expr) :
    Lockstep a (parseBinary (fuel + 1) s parent lhs) := by
  rw [parseBinary]
  refine .peek_ending (x := lhs) (fun t p ht => ite_eq_left_iff.2 fun _ => ?_) fun t => ?_
  -- no token that may be refused is an operator
  · cases ht <;> cases parent <;> rfl
  obtain ⟨op, p⟩ := t
  refine .ite (fun _ => .pure lhs) fun _ => ?_
  dsimp -zeta only
  extract_lets -underBinder jp
  have hjp : Lockstep (some (op, p)) (jp ()) := by
    refine .ite (fun _ => .pure lhs) fun _ => .next_ahead (.bind (h.unary s) fun rhs => ?_)
    refine .peek_any (fun t p ht => ?_) fun t => ?_
    · cases ht <;> rfl
    obtain ⟨op', p'⟩ := t
    dsimp -zeta only
    extract_lets -underBinder prec' jp'
    have hjp' : ∀ rhs, Lockstep none (jp' rhs) := fun rhs =>
      .deeper fun s => .bind (.makeBinary op lhs rhs p) fun e => h.binary s parent e
    exact .ite (fun _ => .deeper fun s => .bind (h.binary s _ rhs) hjp') fun _ =>
      .pureThen (hjp' rhs)
  split
  · exact .ite (fun _ => .failThen _ _) fun _ => hjp
  · exact hjp

/-- No token that may be refused is a sign either: it starts an operand without one. -/
theorem unary_succ : Lockstep a (parseUnary (fuel + 1) s) := by
  rw [parseUnary]
  refine .peek_uniform (fun t p ht => ?_) (h.primary s) fun t hrest => ?_
  · cases ht <;> rfl
  obtain ⟨t, p⟩ := t
  dsimp -zeta only
  split
  · exact .fail _ _
  · refine .next_ahead (.deeper fun s => .bind (h.unary s) fun e => ?_)
    split
    · exact .ite (fun _ => .pure _) fun _ => .pure _
    · exact .pure _
    · exact .pure _
  · refine .next_ahead (.deeper fun s => .bind (h.unary s) fun e => ?_)
    split
    · exact .pure _
    · exact .pure _
    · exact .pure _
  · exact .next_ahead (.deeper fun s => .bind (h.unary s) fun e => .pure _)
  · exact h.primary s

/-- An operand fails at a token that was refused; a token that is the same tells both which kind
of operand it starts. -/
theorem primary_succ : Lockstep a (parsePrimary (fuel + 1) s) := by
  rw [parsePrimary]
  refine .peek_strict (fun f p _ => ⟨p, rfl⟩) fun t => ?_
  obtain ⟨t, p⟩ := t
  dsimp -zeta only
  extract_lets -underBinder asValue jp
  have hjp : ∀ {a} root, Lockstep a (jp root) := fun root => h.accesses s root
  have hvalue : ∀ {stmt : Setting → Parse Stmt}, (∀ s, Lockstep (some (t, p)) (stmt s)) →
      Lockstep (some (t, p)) (asValue (Parse.deeper s >>= stmt) >>= jp) := fun hs =>
    .bind (.bind (.deeper hs) fun _ => .pure _) hjp
  split
  · exact .next_ahead (.pureThen (hjp _))
  split
  · exact .failThen _ _
  · exact .failThen _ _
  · exact hvalue h.block
  · exact .deeper fun s => .bind (h.group s) hjp
  · exact hvalue h.cond
  · exact hvalue h.loop
  · exact hvalue h.loop
  · exact hvalue h.doLoop
  · exact hvalue h.each
  · exact hvalue h.choice
  · exact .bind (h.closure _) hjp
  · exact .bind (h.closure _) hjp
  · exact .deeper fun s => .bind (h.text s) hjp
  · exact .deeper fun s => .bind (h.array s) hjp
  · exact .deeper fun s => .bind (h.map s) hjp
  · refine .next_ahead (.peek_any (fun t p ht => ?_) fun t => ?_)
    · cases ht <;> rfl
    · split
      · exact .pureThen (hjp _)
      · exact .pureThen (hjp _)
      · exact .pureThen (hjp _)
      · exact .bind (.useName _) fun _ => .pureThen (hjp _)
  · refine .next_ahead (.peek_any (fun t p ht => ?_) fun t => ?_)
    · cases ht <;> rfl
    refine .peek_any (fun t p ht => ?_) fun u => ?_
    · cases ht <;> rfl
    refine .ite (fun _ => .pureThen (hjp _)) fun _ => .ite (fun _ => ?_) fun _ => ?_
    · exact .ite (fun _ => .pureThen (hjp _)) fun _ => .failThen _ _
    · exact .failThen _ _
  · exact .failThen _ _

/-- A token that may be refused ends the accesses of an operand. -/
theorem accesses_succ (lhs : Expr) : Lockstep a (parsePostfix (fuel + 1) s lhs) := by
  rw [parsePostfix]
  refine .peek_ending (x := lhs) (fun t p ht => ?_) fun t => ?_
  · cases ht <;> rfl
  obtain ⟨t, p⟩ := t
  dsimp -zeta only
  split
  · exact .next_ahead (.bind (h.args s _) fun args => h.accesses s _)
  · exact .next_ahead (h.accesses s _)
  · exact .next_ahead (.bind .name fun member => h.accesses s _)
  · refine .ite (fun _ => .next_ahead (.deeper fun s' => ?_)) fun _ =>
      .ite (fun _ => .next_ahead (.deeper fun s' => ?_)) fun _ => .pure _
    · refine .bind (h.expr _) fun idx => .bind (.checkIndex _ _) fun _ => ?_
      refine .peek_strict (fun f p _ => ⟨p, rfl⟩) fun close => ?_
      exact .ite (fun _ => .next_ahead (h.accesses s _)) fun _ => .failAt _ _
    · refine .peek_refusing (fun t p ht => ?_) fun t => ?_
      · cases ht <;> exact fun _ => ⟨_, rfl⟩
      obtain ⟨t, p⟩ := t
      dsimp -zeta only
      extract_lets -underBinder jp
      have hjp : ∀ member, Lockstep (some (t, p)) (jp member) := by
        intro member
        refine .next_ahead (.peek_uniform (fun t p ht => ?_) ?_ fun u hrest => ?_)
        · cases ht <;> rfl
        · dsimp only [parting]
          split
          · exact .fail _ _
          · exact h.accesses s _
        · split
          · exact .next_ahead (.bind (h.args _ _) fun args => h.accesses s _)
          · exact .next_ahead (h.accesses s _)
          · exact hrest
      split
      · exact .pureThen (hjp _)
      · exact .ite (fun _ => .pureThen (hjp _)) fun _ => .failThen _ _
      · exact .failThen _ _
  · exact .pure _

/-- Arguments in parentheses, of which the opening one has been taken. -/
theorem args_succ (function : String) : Lockstep a (parseArgs (fuel + 1) s function) := by
  rw [parseArgs]
  refine .peek_strict (fun f p _ => ⟨p, rfl⟩) fun t => ?_
  split
  · exact .fail _ _
  · exact .fail _ _
  · exact .next_ahead (.pure [])
  · exact .deeper fun s => h.argsFrom _ function []

/-- One more argument, and the comma or the parenthesis behind it. -/
theorem argsFrom_succ (function : String) (done : List Expr) :
    Lockstep a (parseArgsFrom (fuel + 1) s function done) := by
  rw [parseArgsFrom]
  refine .peek_any (fun t p ht => ?_) fun t => ?_
  · cases ht <;> rfl
  extract_lets -underBinder jp
  have hjp : ∀ done, Lockstep none (jp done) := by
    intro done
    refine .peek_strict (fun f p _ => ⟨p, rfl⟩) fun t => ?_
    split
    · exact .next_ahead (.pure _)
    · exact .next_ahead (h.argsFrom s function done)
    · exact .fail _ _
    · exact .failAt _ _
  exact .ite (fun _ => .pureThen (hjp done)) fun _ => .bind (h.expr s) fun e => .pureThen (hjp _)

theorem group_succ : Lockstep (some t) (parseGroup (fuel + 1) s) := by
  rw [parseGroup]
  refine .next_ahead (.deeper fun s => .bind (h.expr _) fun e => ?_)
  refine .next_strict (fun f p _ => ⟨p, rfl⟩) fun t => ?_
  exact .ite (fun _ => .pure e) fun _ => .failAt _ _

theorem text_succ : Lockstep (some t) (parseText (fuel + 1) s) := by
  rw [parseText]
  exact .peek_ahead (.bind (h.textFrom s []) fun _ => .pure _)

/-- A text with expressions in it goes on until its last piece. -/
theorem textFrom_succ (done : List Expr) : Lockstep a (parseTextFrom (fuel + 1) s done) := by
  rw [parseTextFrom]
  refine .next_strict (fun f p _ => ⟨p, rfl⟩) fun t => ?_
  split
  · exact .bind (h.block _) fun body => h.textFrom s _
  · exact .pure _
  · exact .failAt _ _

theorem array_succ : Lockstep (some t) (parseArray (fuel + 1) s) := by
  rw [parseArray]
  exact .next_ahead (.bind (h.items _ 0 []) fun _ => .pure _)

/-- The size is checked before every item, so one parser may stop at a limit of its own here. -/
theorem items_succ (count : Nat) (done : List Expr) :
    Lockstep a (parseItems (fuel + 1) s count done) := by
  rw [parseItems]
  refine .checkSize (·.maxArray) (fun _ _ => .array) ?_
  refine .peek_uniform (fun t p ht => ?_) ?_ fun t hrest => ?_
  · cases ht <;> rfl
  · refine .deeper fun s' => .bind (h.expr s') fun e => ?_
    refine .peek_strict (fun f p _ => ⟨p, rfl⟩) fun t => ?_
    split
    · exact .next_ahead (h.items s _ _)
    · exact h.items s _ _
    · exact .fail _ _
    · exact .failAt _ _
  · split
    · exact .next_ahead (.pure _)
    · exact .fail _ _
    · exact hrest

theorem map_succ : Lockstep (some t) (parseMap (fuel + 1) s) := by
  rw [parseMap]
  exact .next_ahead (.bind (h.fields _ []) fun _ => .pure _)

/-- The same for the fields of a map, which also have to differ in their names. -/
theorem fields_succ (done : List (Ident × Expr)) :
    Lockstep a (parseFields (fuel + 1) s done) := by
  rw [parseFields]
  refine .next_strict (fun f p _ => ⟨p, rfl⟩) fun t => ?_
  extract_lets -underBinder
  split
  · exact .pure _
  · exact .fail _ _
  extract_lets -underBinder jp
  have hjp : ∀ name, Lockstep none (jp name) := by
    intro name
    refine .ite (fun _ => .failThen _ _) fun _ => ?_
    refine .next_strict (fun f p _ => ⟨p, rfl⟩) fun colon => ?_
    refine .ite (fun _ => .failAtThen _ _) fun _ => .checkSize (·.maxMap) (fun _ _ => .map) ?_
    refine .deeper fun s' => .bind (h.expr s') fun e => ?_
    refine .peek_strict (fun f p _ => ⟨p, rfl⟩) fun t => ?_
    split
    · exact .next_ahead (h.fields s _)
    · exact h.fields s _
    · exact .fail _ _
    · exact .failAt _ _
  split
  · exact .pureThen (hjp _)
  · exact .pureThen (hjp _)
  · exact .ite (fun _ => .failThen _ _) fun _ => .failThen _ _
  · exact .failAtThen _ _

/-- What a closure captures goes by the scopes, which are the same for both. -/
theorem closure_succ (t : Located) : Lockstep (some t) (parseClosure (fuel + 1)) := by
  rw [parseClosure]
  obtain ⟨t, p⟩ := t
  refine .next_ahead (.get (fun _ _ _ _ _ _ _ => rfl) fun around => ?_)
  refine .bind (.modify fun _ _ _ _ ⟨_, _, _, h⟩ => .mk _ _ _ h) fun _ => ?_
  refine .bind (.take nofun) fun b => ?_
  extract_lets -underBinder jp
  have hjp : ∀ params, Lockstep none (jp params) := by
    intro params
    refine .bind (.modify fun _ _ _ _ ⟨_, _, _, h⟩ => .mk _ _ _ h) fun _ => ?_
    refine .bind (h.stmt _) fun body => .get (fun _ _ _ _ _ _ _ => rfl) fun st => ?_
    refine .bind (.modify fun _ _ _ _ ⟨_, _, _, h⟩ => .mk _ _ _ h) fun _ => ?_
    exact .bind (.forM (fun n => .useName n) _) fun _ => .pure _
  refine .ite (fun _ => .pureThen (hjp _)) fun _ => ?_
  exact .ite (fun _ => .pureThen (hjp _)) fun _ => .bind (h.closureParams []) hjp

theorem closureParams_succ (done : List String) :
    Lockstep a (parseClosureParams (fuel + 1) done) := by
  rw [parseClosureParams]
  refine .next_strict (fun f p _ => ⟨p, rfl⟩) fun t => ?_
  split
  · exact .pure _
  · refine .ite (fun _ => .failThen _ _) fun _ => ?_
    refine .next_strict (fun f p _ => ⟨p, rfl⟩) fun sep => ?_
    split
    · exact .pure _
    · exact h.closureParams _
    · exact .failAt _ _
  · exact .failAt _ _

/-! ## Statements -/

/-- A statement that starts with a token that may be refused is an expression. -/
theorem stmt_succ : Lockstep a (parseStmt (fuel + 1) s) := by
  rw [parseStmt]
  refine .peek_uniform (fun t p ht => ?_) (.deeper fun s => h.exprStmt s) fun t hrest => ?_
  · cases ht <;> rfl
  obtain ⟨t, p⟩ := t
  dsimp -zeta only
  extract_lets -underBinder deeper
  split
  · exact .pure _
  · exact .next_ahead (.pure _)
  · exact .deeper fun s => h.block s
  · exact .ite (fun _ => h.define _) fun _ => .fail _ _
  · refine .next_ahead (.peek_strict (fun f p _ => ⟨p, rfl⟩) fun t => ?_)
    exact .ite (fun _ => .failAt _ _) fun _ => .ite (fun _ => h.define _) fun _ => .fail _ _
  · exact .deeper fun s => h.cond s
  · exact .deeper fun s => h.choice s
  · exact .deeper fun s => h.loop s
  · exact .deeper fun s => h.loop s
  · exact .deeper fun s => h.doLoop s
  · exact .deeper fun s => h.each s
  · exact .ite (fun _ => .next_ahead (.pure _)) fun _ => .fail _ _
  · refine .ite (fun _ => .next_ahead (.peek_any (fun t p ht => ?_) fun t => ?_)) fun _ => .fail _ _
    · cases ht <;> rfl
    · split
      · exact .pure _
      · exact .pure _
      · exact .pure _
      · exact .deeper fun s => .bind (h.expr s) fun e => .pure _
  · exact .next_ahead (.bind (h.result s) fun e => .pure _)
  · exact .next_ahead (.bind (h.result s) fun e => .pure _)
  · exact .deeper fun s => h.attempt s
  · exact .deeper fun s => h.binding s false
  · exact .deeper fun s => h.binding s true
  · exact .deeper fun s => h.load s
  · extract_lets -underBinder jp
    have hjp : Lockstep (some (.word "export", p)) (jp ()) := by
      refine .next_ahead (.peek_uniform (fun t p ht => ?_) ?_ fun t hrest => ?_)
      · cases ht <;> rfl
      · refine .bind .name fun n => .bind (.useName n) fun _ => .bind (.take nofun) fun b => ?_
        exact .ite (fun _ => .bind .name fun _ => .pure _) fun _ => .pure _
      · split
        · exact .deeper fun s => h.binding s false
        · exact .deeper fun s => h.binding s true
        · exact hrest
    exact .ite (fun _ => .failThen _ _) fun _ => hjp
  · exact .deeper fun s => h.exprStmt s

/-- What is behind `return` or `break` may be missing. -/
theorem result_succ : Lockstep a (parseResult (fuel + 1) s) := by
  rw [parseResult]
  have hexpr {a} : Lockstep a (Parse.deeper s >>= fun s => parseExpr fuel s >>= fun e =>
      pure (some e)) := .deeper fun s => .bind (h.expr s) fun e => .pure _
  refine .peek_any (fun t p ht => ?_) fun t => ?_
  · cases ht <;> rfl
  split
  · exact .pure _
  · exact .pure _
  · exact .ite (fun _ => hexpr) fun _ => .pure _
  · exact hexpr

/-- An expression, and what is assigned to it. -/
theorem exprStmt_succ : Lockstep a (parseExprStmt (fuel + 1) s) := by
  rw [parseExprStmt]
  refine .bind (h.expr s) fun e => .peek_ending (x := .expr e) (fun t p ht => ?_) fun t => ?_
  · cases ht <;> rfl
  obtain ⟨t, p⟩ := t
  dsimp -zeta only
  split
  · exact .pure _
  · exact .next_ahead (.bind (h.expr s) fun value => .makeAssignment _ _ _ _)

/-- A block has a scope of its own. -/
theorem block_succ : Lockstep a (parseBlock (fuel + 1) s) := by
  rw [parseBlock]
  refine .next_strict (fun f p _ => ⟨p, rfl⟩) fun t => ?_
  exact .ite (fun _ => .failAtThen _ _) fun _ => .bind (.inScope (h.stmts _ [])) fun _ => .pure _

/-- Statements need a semicolon between them, apart from those that end by themselves. -/
theorem stmts_succ (done : List Stmt) : Lockstep a (parseStmts (fuel + 1) s done) := by
  rw [parseStmts]
  refine .peek_uniform (fun t p ht => ?_) ?_ fun t hrest => ?_
  · cases ht <;> rfl
  · refine .bind (h.stmt s) fun stmt => ?_
    split
    · exact h.stmts s done
    · refine .peek_orFail stmt.endsItself (.missing ";" "to terminate this statement")
        (fun t p ht => ?_) (h.stmts s (stmt :: done)) fun t => ?_
      · cases ht <;> rfl
      · split
        · exact h.stmts s _
        · exact .next_ahead (h.stmts s _)
        · exact .ite (fun _ => h.stmts s _) fun _ => .failAt _ _
  · split
    · exact .next_ahead (.pure _)
    · exact .fail _ _
    · exact hrest

/-- The word that starts the statement is known to be ahead, here and below. -/
theorem cond_succ : Lockstep (some t) (parseIf (fuel + 1) s) := by
  rw [parseIf]
  refine .next_ahead (.bind .ensureNoBlock fun _ => .bind (h.expr s) fun e => ?_)
  refine .bind (.ensureBool e) fun guard => .bind .ensureNoAssignment fun _ => ?_
  refine .bind (h.block s) fun yes => .bind (.take nofun) fun b => ?_
  refine .ite (fun _ => ?_) fun _ => .pure _
  refine .peek_uniform (fun t p ht => ?_) ?_ fun t hrest => ?_
  · cases ht <;> rfl
  · exact .bind (h.block s) fun no => .pure _
  · exact .ite (fun _ => .bind (h.cond s) fun no => .pure _) fun _ =>
      .bind (h.block s) fun no => .pure _

theorem loop_succ : Lockstep (some t) (parseLoop (fuel + 1) s) := by
  rw [parseLoop]
  obtain ⟨t, p⟩ := t
  refine .next_ahead ?_
  dsimp -zeta only
  extract_lets -underBinder jp
  have hjp : ∀ guard, Lockstep none (jp guard) := fun guard =>
    .bind (h.block _) fun body => .pure _
  refine .ite (fun _ => .bind .ensureNoBlock fun _ => ?_) fun _ => .pureThen (hjp _)
  refine .bind (h.expr s) fun e => .bind (.ensureBool e) fun guard => ?_
  exact .bind .ensureNoAssignment fun _ => .pureThen (hjp _)

/-- Behind the body stands `while` or `until`, and a token that may be refused is neither. -/
theorem doLoop_succ : Lockstep (some t) (parseDo (fuel + 1) s) := by
  rw [parseDo]
  refine .next_ahead (.bind (h.block _) fun body => ?_)
  refine .next_refusing (fun t p ht => ?_) fun t => ?_
  · cases ht <;> exact fun _ => ⟨_, rfl⟩
  extract_lets -underBinder jp
  have hjp : ∀ wanted, Lockstep none (jp wanted) := fun wanted =>
    .bind .ensureNoBlock fun _ => .bind (h.expr s) fun e => .bind (.ensureBool e) fun guard =>
      .bind .ensureNoAssignment fun _ => .pure _
  split
  · exact .pureThen (hjp _)
  · exact .pureThen (hjp _)
  · exact .failThen _ _

/-- The names of the loop are bound for its body. -/
theorem each_succ : Lockstep (some t) (parseFor (fuel + 1) s) := by
  rw [parseFor]
  refine .next_ahead (.bind (.take nofun) fun b => ?_)
  extract_lets -underBinder jp
  have hjp : ∀ names, Lockstep none (jp names) := by
    rintro ⟨name, counter⟩
    refine .next_strict (fun f p _ => ⟨p, rfl⟩) fun t => ?_
    refine .ite (fun _ => .failAtThen _ _) fun _ => .bind .ensureNoBlock fun _ => ?_
    refine .bind (h.expr s) fun e => .bind (.ensureIterable e) fun source => ?_
    refine .bind (.inScope ?_) fun body => .pure _
    extract_lets -underBinder jp'
    have hjp' : ∀ r, Lockstep none (jp' r) := fun r => .bind (.bindName _ _) fun _ => h.block _
    split
    · exact .bind (.bindName _ _) hjp'
    · exact hjp' ()
  refine .ite (fun _ => .bind .name fun name => ?_) fun _ => .bind .name fun name =>
    .pureThen (hjp (name, none))
  refine .expect nofun (.bind .name fun counter => .ite (fun _ => .failThen _ _) fun _ => ?_)
  exact .expect nofun (.pureThen (hjp (name, some counter)))

/-- The cases of a `switch` come in braces. -/
theorem choice_succ : Lockstep (some t) (parseSwitch (fuel + 1) s) := by
  rw [parseSwitch]
  refine .next_ahead (.bind (h.expr s) fun subject => ?_)
  refine .next_strict (fun f p _ => ⟨p, rfl⟩) fun t => ?_
  refine .ite (fun _ => .failAtThen _ _) fun _ => ?_
  exact .bind (h.cases _ [] none) fun _ => .pure _

/-- One more case, with its values, its guard and its body. -/
theorem cases_succ (done : List Case) (otherwise : Option (Stmt × Place)) :
    Lockstep a (parseCases (fuel + 1) s done otherwise) := by
  rw [parseCases]
  -- a closing brace and `default` are taken, values of a case are parsed at their first token
  refine .peek_either (fun t p ht => ?_) fun t b hb => ?_
  · cases ht <;> rfl
  split
  · rename_i heq
    obtain rfl := hb (heq ▸ nofun)
    exact .next_ahead (.pure _)
  · exact .fail _ _
  extract_lets -underBinder jp
  have hjp : Lockstep b (jp ()) := by
    unfold jp
    extract_lets -underBinder isDefault jp'
    have hjp' : ∀ r, Lockstep none (jp' r) := by
      rintro ⟨values, guard⟩
      refine .next_strict (fun f p _ => ⟨p, rfl⟩) fun arrow => ?_
      refine .ite (fun _ => .failAtThen _ _) fun _ => .bind (h.stmt s) fun body => ?_
      refine .bind (.mapM (fun e => .caseValue e) values) fun values => ?_
      refine .peek_strict (fun f p _ => ⟨p, rfl⟩) fun after => ?_
      extract_lets -underBinder jp''
      have hjp'' {a} : Lockstep a (jp'' ()) := .ite (fun _ => h.cases ..) fun _ => h.cases ..
      split
      · exact .next_ahead hjp''
      · exact hjp''
      · exact .failThen _ _
      · exact .failThen _ _
      · exact .ite (fun _ => .failThen _ _) fun _ => hjp''
    refine .ite (fun hdefault => ?_) fun _ => .bind (h.caseValues s []) fun values => ?_
    · obtain rfl := hb (hdefault ▸ nofun)
      refine .next_ahead (.peek_any (fun t p ht => ?_) fun t => ?_)
      · cases ht <;> rfl
      exact .ite (fun _ => .failThen _ _) fun _ => .pureThen (hjp' ([], none))
    · refine .bind (.take nofun) fun b => ?_
      refine .ite (fun _ => ?_) fun _ => .pureThen (hjp' (values, none))
      refine .bind .ensureNoBlock fun _ => .bind (h.expr s) fun e => ?_
      refine .bind (.ensureBool e) fun guard => .bind .ensureNoAssignment fun _ => ?_
      exact .pureThen (hjp' (values, some guard))
  split
  · exact .failThen _ _
  · exact hjp

theorem caseValues_succ (done : List Expr) :
    Lockstep a (parseCaseValues (fuel + 1) s done) := by
  rw [parseCaseValues]
  refine .bind (h.expr _) fun e => .bind (.take nofun) fun b => ?_
  exact .ite (fun _ => h.caseValues s _) fun _ => .pure _

theorem binding_succ (constant : Bool) : Lockstep (some t) (parseLet (fuel + 1) s constant) := by
  rw [parseLet]
  refine .next_ahead (.bind .name fun name => .bind (.take nofun) fun b => ?_)
  extract_lets -underBinder jp
  have hjp : ∀ value, Lockstep none (jp value) := fun value =>
    .bind (.bindName _ _) fun _ => .pure _
  exact .ite (fun _ => .bind (h.expr s) fun e => .pureThen (hjp _)) fun _ => .pureThen (hjp _)

/-- An import may have an alias. -/
theorem load_succ : Lockstep (some t) (parseImport (fuel + 1) s) := by
  rw [parseImport]
  refine .next_ahead (.bind (h.expr s) fun source => .bind (.take nofun) fun b => ?_)
  exact .ite (fun _ => .bind .name fun name => .pure _) fun _ => .pure _

theorem attempt_succ : Lockstep (some t) (parseTry (fuel + 1) s) := by
  rw [parseTry]
  refine .next_ahead (.bind (h.block s) fun body => .expect nofun (.bind (.take nofun) fun b => ?_))
  extract_lets -underBinder jp
  have hjp : ∀ name, Lockstep none (jp name) := by
    intro name
    refine .bind (.inScope ?_) fun handler => .pure _
    extract_lets -underBinder jp'
    have hjp' : ∀ r, Lockstep none (jp' r) := fun r => h.block s
    split
    · exact .bind (.bindName _ _) hjp'
    · exact hjp' ()
  refine .ite (fun _ => .bind .name fun name => ?_) fun _ => .pureThen (hjp none)
  exact .expect nofun (.pureThen (hjp (some name)))

/-- The name, the parentheses and the body of a function start with no token that may be
refused. -/
theorem define_succ (t : Located) : Lockstep (some t) (parseFn (fuel + 1)) := by
  rw [parseFn]
  refine .next_ahead (.get (fun _ _ _ _ _ _ _ => rfl) fun around => ?_)
  refine .next_refusing (fun t p ht => ?_) fun t => ?_
  · cases ht <;> exact fun _ => ⟨_, rfl⟩
  extract_lets -underBinder jp
  have hjp : ∀ name, Lockstep none (jp name) := by
    intro name
    refine .peek_refusing (fun t p ht => ?_) fun open_ => ?_
    · cases ht <;> exact fun _ => ⟨_, rfl⟩
    extract_lets -underBinder jp'
    have hjp' : ∀ params, Lockstep none (jp' params) := by
      intro params
      refine .peek_refusing (fun t p ht => ?_) fun body => ?_
      · cases ht <;> exact fun _ => ⟨_, rfl⟩
      refine .ite (fun _ => .failThen _ _) fun _ => ?_
      refine .bind (.modify fun _ _ _ _ ⟨_, _, _, h⟩ => .mk _ _ _ h) fun _ => ?_
      refine .bind (h.block _) fun block => .ite (fun _ => .failThen _ _) fun _ => ?_
      exact .bind (.modify fun _ _ _ _ ⟨_, _, _, h⟩ => .mk _ _ _ h) fun _ => .pure _
    split
    · exact .next_ahead (.pureThen (hjp' _))
    · refine .next_ahead (.bind (.take nofun) fun b => ?_)
      exact .ite (fun _ => .pureThen (hjp' _)) fun _ => .bind (h.params name []) hjp'
    · exact .failThen _ _
  split
  · exact .pureThen (hjp _)
  · exact .failThen _ _
  · exact .failThen _ _

/-- The parameters of a function have to differ. -/
theorem params_succ (function : String) (done : List String) :
    Lockstep a (parseParams (fuel + 1) function done) := by
  rw [parseParams]
  refine .next_strict (fun f p _ => ⟨p, rfl⟩) fun t => ?_
  split
  · exact .pure _
  · refine .ite (fun _ => .failThen _ _) fun _ => ?_
    refine .next_strict (fun f p _ => ⟨p, rfl⟩) fun sep => ?_
    split
    · exact .pure _
    · exact h.params function _
    · exact .failAt _ _
  · exact .failAt _ _

/-! ## All functions, and whole scripts -/

omit h in
/-- Parsing goes in lockstep to any depth. -/
theorem all (fuel : Nat) : InStep fuel := by
  induction fuel with
  | zero => exact zero
  | succ fuel h =>
    exact {
      expr := h.expr_succ
      binary := h.binary_succ
      unary := h.unary_succ
      primary := h.primary_succ
      accesses := h.accesses_succ
      args := h.args_succ
      argsFrom := h.argsFrom_succ
      group := h.group_succ
      text := h.text_succ
      textFrom := h.textFrom_succ
      array := h.array_succ
      items := h.items_succ
      map := h.map_succ
      fields := h.fields_succ
      closure := h.closure_succ
      closureParams := h.closureParams_succ
      stmt := h.stmt_succ
      result := h.result_succ
      exprStmt := h.exprStmt_succ
      block := h.block_succ
      stmts := h.stmts_succ
      cond := h.cond_succ
      loop := h.loop_succ
      doLoop := h.doLoop_succ
      each := h.each_succ
      choice := h.choice_succ
      cases := h.cases_succ
      caseValues := h.caseValues_succ
      binding := h.binding_succ
      load := h.load_succ
      attempt := h.attempt_succ
      define := h.define_succ
      params := h.params_succ }

/-- So do the statements of a script. -/
theorem top (rounds : Nat) (done : List Stmt) : Lockstep a (parseTop rounds fuel s done) := by
  induction rounds generalizing done a with
  | zero => exact .pure _
  | succ rounds ih =>
    rw [parseTop]
    refine .peek_any (fun t p ht => ?_) fun t => ?_
    · cases ht <;> rfl
    refine .ite (fun _ => .pure _) fun _ => .bind (h.stmt s) fun stmt => ?_
    split
    · exact ih done
    · exact ih _
    · refine .peek_orFail stmt.endsItself (.missing ";" "to terminate this statement")
        (fun t p ht => ?_) (ih (stmt :: done)) fun t => ?_
      · cases ht <;> rfl
      split
      · exact .pure _
      · exact .ite (fun _ => ih _) fun _ => .next_ahead (ih _)
      · exact .ite (fun _ => ih _) fun _ => .failAt _ _

end InStep

/-- What parsing a script under two limits gives: the same program, or no program either way, or
one parser stops at a limit where the other goes on. -/
inductive ParsesAlike (l l' : ParseLimits) :
    Except ParseError Program → Except ParseError Program → Prop
  | same (p : Program) : ParsesAlike l l' (.ok p) (.ok p)
  | refused (e e' : ParseError) : ParsesAlike l l' (.error e) (.error e')
  | left {e : ParseError} (r : Except ParseError Program) (h : l.Stops l' e.fault) :
    ParsesAlike l l' (.error e) r
  | right {e : ParseError} (r : Except ParseError Program) (h : l'.Stops l e.fault) :
    ParsesAlike l l' r (.error e)

/-- Two parsers of one script agree, unless one of them stops at a limit that is tighter than
the other's. -/
theorem parse_alike (l l' : ParseLimits) (script : List Char) :
    ParsesAlike l l' (parse l script) (parse l' script) := by
  have hstart : ParseState.Alike l l' ⟨l, tokens l.lexOptions script, [], [], []⟩
      ⟨l', tokens l'.lexOptions script, [], [], []⟩ :=
    .mk [] [] [] (tokens_alike l.lexOptions l'.lexOptions script)
  have hagree := (InStep.all (16 * (script.length + 2) + 16)).top topSetting
    (script.length + 2 + 1) [] (a := none) hstart nofun
  unfold parse StateT.run
  dsimp only
  unfold ParseLimits.lexOptions at hagree
  revert hagree
  generalize parseTop _ _ _ _ _ = r
  generalize parseTop _ _ _ _ _ = r'
  rintro (⟨body, -⟩ | ⟨e, e'⟩ | ⟨r, h⟩ | ⟨r, h⟩)
  · exact .same _
  · exact .refused e e'
  · exact .left _ h
  · exact .right _ h

end LiveScene.Script
