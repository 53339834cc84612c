import LiveScene.Proofs.Script.Worlds
import Mathlib.Data.List.Nodup
import Mathlib.Data.List.Infix

/-!
# What a run leaves in scope

A step is `Steady` if it leaves the names in scope as they are, however it
ends, and it `Stacks` if it puts names in front of them at most. A step in a
block `Fills` it if the names that the block has bound stay distinct and
those outside of it stay as they are: a variable of a name that the block has
bound already takes the place of the other one (`fills_bind`).

Expressions, calls and blocks are steady, and statements fill the block they
stand in (`SteadyTo.all`). The functions of the evaluator call each other with
less fuel, so this is one induction on it with a lemma for the step of each.
A script is a block with nothing outside of it, so it leaves no name twice
(`run_nodup_names`).
-/

namespace LiveScene.Script

/-- The names in scope, newest first. -/
def Machine.names (s : Machine) : List String := s.scope.map (·.name)

namespace Eval

variable {α β σ : Type} {step : Eval α} {next : α → Eval β}

/-- The state in which a step ends, with a result or without. -/
def after (step : Eval α) (s : Machine) : Machine :=
  match step s with
  | .ok _ t => t
  | .error _ t => t

/-- A step that leaves the names in scope as they are. -/
def Steady (step : Eval α) : Prop := ∀ s : Machine, (after step s).names = s.names

/-- A step that at most puts names in front of those in scope. -/
def Stacks (step : Eval α) : Prop := ∀ s : Machine, s.names <:+ (after step s).names

/-- A step in a block with `outer` names outside: those stay, and the names of the block stay
distinct. -/
def Fills (outer : Nat) (step : Eval α) : Prop :=
  ∀ (s : Machine) (inner out : List String), s.names = inner ++ out → out.length = outer →
    inner.Nodup → ∃ inner', (after step s).names = inner' ++ out ∧ inner'.Nodup

/-- The state behind two steps, written out. -/
theorem after_bind (step : Eval α) (next : α → Eval β) (s : Machine) :
    after (step >>= next) s =
      match step s with
      | .ok a t => after (next a) t
      | .error _ t => t := by
  simp only [after, Bind.bind, EStateM.bind]
  cases step s <;> rfl

/-- The step behind another one starts where that ends, if it starts at all. -/
theorem after_bind_cases (step : Eval α) (next : α → Eval β) (s : Machine) :
    after (step >>= next) s = after step s ∨
      ∃ a, after (step >>= next) s = after (next a) (after step s) := by
  rw [after_bind, after]
  cases step s with
  | ok a t => exact .inr ⟨a, rfl⟩
  | error e t => exact .inl rfl

/-! ## Steady steps -/

namespace Steady

theorem pure (a : α) : Steady (Pure.pure a) := fun _ => rfl

/-- What ends a run leaves the names that are in scope there. -/
theorem throw (e : Stop) : Steady (throw e : Eval α) := fun _ => rfl

theorem fail (c : Cause) (p : Place) : Steady (fail c p : Eval α) := fun _ => rfl

theorem get : Steady (MonadState.get : Eval Machine) := fun _ => rfl

/-- A change of the state apart from the names. -/
theorem modify {g : Machine → Machine} (h : ∀ s, (g s).names = s.names) :
    Steady (modify g : Eval PUnit) := h

/-- Steady steps one after the other are steady. -/
theorem bind (h : Steady step) (hn : ∀ a, Steady (next a)) : Steady (step >>= next) := by
  intro s
  rcases after_bind_cases step next s with heq | ⟨a, heq⟩
  · rw [heq, h s]
  · rw [heq, hn a, h s]

theorem ite {c : Prop} [Decidable c] {other : Eval α} (h : Steady step) (ho : Steady other) :
    Steady (if c then step else other) := by
  split_ifs
  · exact h
  · exact ho

/-- A check that may end the run, and what comes behind it. -/
theorem guard {c : Prop} [Decidable c] {e : Stop} {rest : Eval β} (h : Steady rest) :
    Steady (if c then (MonadExcept.throw e : Eval α) >>= next else rest) := by
  split_ifs
  · exact fun _ => rfl
  · exact h

/-- What was computed apart from the state. -/
theorem at_ (p : Place) (r : Computed α) : Steady (at_ p r) := by
  cases r with
  | ok a => exact pure a
  | error c => exact fail c p

theorem track (w : World) (p : Place) : Steady (track w p) := by
  unfold Eval.track
  refine bind get fun s => bind (modify fun _ => rfl) fun _ => guard (guard ?_)
  exact ite (throw _) (pure _)

theorem checkSize (w : World) (size : DataSize) (p : Place) : Steady (checkSize w size p) := by
  unfold Eval.checkSize
  exact guard (guard (ite (fail _ p) (pure _)))

theorem sized (w : World) (v : Value) (p : Place) : Steady (sized w v p) := by
  have hsize : Steady (do Eval.checkSize w v.dataSize p; return v) :=
    bind (checkSize w _ p) fun _ => pure v
  unfold Eval.sized
  split
  · exact hsize
  · exact hsize
  · exact hsize
  · exact pure _

/-- Reading a variable. -/
theorem load (slot : Slot) : Steady (load slot) := by
  cases slot with
  | own v => exact pure v
  | shared c => exact bind get fun s => pure _

theorem find? (name : String) : Steady (find? name) := bind get fun _ => pure _

/-- A variable that moves into a cell keeps its name and its place. -/
theorem names_rebind (name : String) (slot : Slot) (scope : List Binding) :
    (rebind name slot scope).map (·.name) = scope.map (·.name) := by
  induction scope with
  | nil => rfl
  | cons b scope ih =>
    rw [rebind]
    split_ifs
    · rfl
    · rw [List.map_cons, List.map_cons, ih]

/-- Setting a variable. -/
theorem store (name : String) (v : Value) : Steady (store name v) := by
  unfold Eval.store
  refine bind (find? name) fun b? => ?_
  split
  · exact modify fun _ => rfl
  · exact modify fun s => names_rebind name _ s.scope

theorem share? (name : String) : Steady (share? name) := by
  unfold Eval.share?
  refine bind (find? name) fun b? => ?_
  split
  · exact pure _
  · exact pure _
  · refine bind get fun s => bind (modify fun t => ?_) fun _ => pure _
    exact names_rebind name _ t.scope

/-- A function runs in a scope of its own, and the one around it is put back. -/
theorem inFunction (scope : List Binding) (this : Option Value) (body : Eval Value) :
    Steady (inFunction scope this body) := by
  intro s
  simp only [after, Eval.inFunction]
  cases body { s with scope := scope, this := this, level := s.level + 1 } with
  | ok v t => rfl
  | error e t => cases e <;> rfl

/-- Catching a failure puts nothing back, so the body has to be steady itself. -/
theorem attempt {body : Eval Value} (h : Steady body) : Steady (attempt body) := by
  intro s
  have hs := h s
  simp only [after, Eval.attempt] at hs ⊢
  cases hr : body s with
  | ok v t => simpa only [hr] using hs
  | error e t => cases e <;> simpa only [hr] using hs

/-- The same for leaving a round of a loop. -/
theorem oneRound {body : Eval Value} (h : Steady body) : Steady (oneRound body) := by
  intro s
  have hs := h s
  simp only [after, Eval.oneRound] at hs ⊢
  cases hr : body s with
  | ok v t => simpa only [hr] using hs
  | error e t => cases e <;> simpa only [hr] using hs

theorem mapM {f : α → Eval β} (h : ∀ a, Steady (f a)) (as : List α) : Steady (as.mapM f) := by
  induction as with
  | nil => exact pure _
  | cons a as ih =>
    rw [List.mapM_cons]
    exact bind (h a) fun _ => bind ih fun _ => pure _

/-- A loop is steady if each of its rounds is, by induction on how many there are. -/
theorem iterate {round : σ → Eval (σ ⊕ Value)} (h : ∀ a, Steady (round a)) (n : Nat) :
    ∀ a, Steady (iterate round n a) := by
  induction n with
  | zero => exact fun _ => throw _
  | succ n ih =>
    intro a
    refine bind (h a) fun r => ?_
    cases r with
    | inl b => exact ih b
    | inr v => exact pure v

/-- A steady step puts no names in front. -/
theorem toStacks (h : Steady step) : Stacks step := fun s => h s ▸ List.suffix_rfl

/-- Nor does it bind any in a block. -/
theorem toFills (h : Steady step) (outer : Nat) : Fills outer step :=
  fun s inner _ hs _ hinner => ⟨inner, (h s).trans hs, hinner⟩

end Steady

/-! ## Blocks -/

theorem stacks_push (name : String) (v : Value) : Stacks (push name v) :=
  fun s => List.suffix_cons name s.names

/-- Names are put in front of names. -/
theorem Stacks.bind (h : Stacks step) (hn : ∀ a, Stacks (next a)) : Stacks (step >>= next) := by
  intro s
  rcases after_bind_cases step next s with heq | ⟨a, heq⟩
  · rw [heq]
    exact h s
  · rw [heq]
    exact (h s).trans (hn a _)

/-- Out of a block, what it put in front is gone. -/
theorem names_leaveTo {s t : Machine} (h : s.names <:+ t.names) :
    (Machine.leaveTo s t).names = s.names := by
  rw [List.suffix_iff_eq_drop] at h
  rw [Machine.names, Machine.leaveTo, List.map_drop]
  simp only [Machine.names, List.length_map] at h ⊢
  exact h.symm

/-- Behind a block there is the state behind its last step, without what the block put in front.
-/
theorem after_inBlock (step : Eval α) (s : Machine) :
    after (inBlock step) s = Machine.leaveTo s (after step s) := by
  simp only [after, inBlock]
  cases step s <;> rfl

/-- A block in which names are put in front is steady. -/
theorem Stacks.inBlock (h : Stacks step) : Steady (inBlock step) := fun s => by
  rw [after_inBlock, names_leaveTo (h s)]

/-- A block that starts with the names in scope outside of it. -/
theorem Fills.inBlock {block : Nat → Eval α} (h : ∀ outer, Fills outer (block outer)) :
    Steady (do
      let outer := (← MonadState.get).scope.length
      Eval.inBlock (block outer)) := by
  intro s
  obtain ⟨inner, heq, -⟩ := h s.scope.length s [] s.names rfl (by simp [Machine.names])
    List.nodup_nil
  have hsuffix : s.names <:+ (after (block s.scope.length) s).names := ⟨inner, heq.symm⟩
  exact (congrArg Machine.names (after_inBlock _ s)).trans (names_leaveTo hsuffix)

/-- Statements fill a block one after the other. -/
theorem Fills.bind {outer : Nat} (h : Fills outer step) (hn : ∀ a, Fills outer (next a)) :
    Fills outer (step >>= next) := by
  intro s inner out hs hout hinner
  obtain ⟨inner', heq', hinner'⟩ := h s inner out hs hout hinner
  rcases after_bind_cases step next s with heq | ⟨a, heq⟩
  · exact ⟨inner', heq ▸ heq', hinner'⟩
  · rw [heq]
    exact hn a _ inner' out heq' hout hinner'

/-- A variable that takes the place of another one of its name leaves the names as they are. -/
theorem names_replaceFirst (b : Binding) (scope : List Binding) :
    (bind.replaceFirst b scope).map (·.name) = scope.map (·.name) := by
  induction scope with
  | nil => rfl
  | cons c scope ih =>
    rw [bind.replaceFirst]
    split_ifs with h
    · simp [h]
    · rw [List.map_cons, List.map_cons, ih]

/-- A variable of a name that the block has bound takes the place of the other one, any other
goes in front. -/
theorem fills_bind (outer : Nat) (name : String) (constant : Bool) (v : Value) :
    Fills outer (Eval.bind outer name constant v) := by
  intro s inner out hs hout hinner
  have hlength : s.scope.length - outer = inner.length := by
    have := congrArg List.length hs
    simp only [Machine.names, List.length_map, List.length_append] at this
    omega
  have htake : (s.scope.take (s.scope.length - outer)).map (·.name) = inner := by
    rw [List.map_take, hlength]
    simp only [Machine.names] at hs
    rw [hs, List.take_left]
  have hany : (s.scope.take (s.scope.length - outer)).any (·.name = name) = true ↔
      name ∈ inner := by
    rw [← htake, List.any_eq_true]
    simp only [decide_eq_true_eq, List.mem_map]
  have hafter : (after (Eval.bind outer name constant v) s).scope =
      if name ∈ inner then bind.replaceFirst ⟨name, constant, .own v⟩ s.scope
      else ⟨name, constant, .own v⟩ :: s.scope := by
    change Machine.scope (if _ then _ else _) = _
    simp only [hany]
    split_ifs <;> rfl
  rw [Machine.names, hafter]
  split_ifs with h
  · exact ⟨inner, (names_replaceFirst _ _).trans hs, hinner⟩
  · exact ⟨name :: inner, congrArg (name :: ·) hs, List.nodup_cons.2 ⟨h, hinner⟩⟩

end Eval

/-! ## Evaluation to a depth -/

open Eval (Steady Stacks Fills)

/-- Evaluation up to a depth leaves the names in scope as they are, but for those that the
statements of a block bind in it. -/
structure SteadyTo (w : World) (fuel : Nat) : Prop where
  expr : ∀ e, Steady (evalExpr w fuel e)
  bare : ∀ e, Steady (evalBare w fuel e)
  condition : ∀ e, Steady (evalCondition w fuel e)
  arg : ∀ e, Steady (evalArg w fuel e)
  callArgs : ∀ es, Steady (evalCallArgs w fuel es)
  args : ∀ es, Steady (evalArgs w fuel es)
  items : ∀ constant size done es, Steady (evalItems w fuel constant size done es)
  fields : ∀ constant size done fields, Steady (evalFields w fuel constant size done fields)
  text : ∀ done es, Steady (evalText w fuel done es)
  links : ∀ links, Steady (evalLinks w fuel links)
  chain : ∀ base accesses assign, Steady (evalChain w fuel base accesses assign)
  walk : ∀ constant v accesses assign, Steady (follow w fuel constant v accesses assign)
  method : ∀ constant v n args, Steady (callMethod w fuel constant v n args)
  byName : ∀ constant v n args, Steady (callNamed w fuel constant v n args)
  builtin : ∀ n args, Steady (callBuiltin w fuel n args)
  overAll : ∀ f goOn items place, Steady (overItems w fuel f goOn items place)
  script : ∀ f this args place, Steady (callScript w fuel f this args place)
  closure : ∀ name captured params body this args place,
    Steady (callClosure w fuel name captured params body this args place)
  entered : ∀ name scope this body place, Steady (enter w fuel name scope this body place)
  call : ∀ n args, Steady (evalCall w fuel n args)
  body : ∀ s, Steady (evalBody w fuel s)
  stmts : ∀ outer last body, Fills outer (evalStmts w fuel outer last body)
  stmt : ∀ outer s, Fills outer (evalStmt w fuel outer s)
  optional : ∀ value, Steady (evalOptional w fuel value)
  cases : ∀ cases otherwise, Steady (evalCases w fuel cases otherwise)
  assign : ∀ op target v place, Steady (evalAssign w fuel op target v place)

namespace SteadyTo

variable {w : World} {fuel : Nat}

/-- Without fuel every function stops where it is. -/
theorem zero : SteadyTo w 0 := by
  constructor <;> intros
  case stmts => exact (Steady.throw _).toFills _
  case stmt => exact (Steady.throw _).toFills _
  all_goals exact .throw _

variable (h : SteadyTo w fuel)

include h

/-! ### Expressions and their parts -/

/-- An expression is counted and then evaluated. -/
theorem expr_succ (e : Expr) : Steady (evalExpr w (fuel + 1) e) := by
  rw [evalExpr]
  exact .bind (.track w _) fun _ => h.bare e

theorem condition_succ (e : Expr) : Steady (evalCondition w (fuel + 1) e) := by
  rw [evalCondition]
  refine .bind (h.expr e) fun v => ?_
  cases v with
  | bool b => exact .pure _
  | _ => exact .fail _ _

theorem arg_succ (e : Expr) : Steady (evalArg w (fuel + 1) e) := by
  rw [evalArg]
  exact .ite (h.bare e) (h.expr e)

/-- A variable that comes first among the arguments is evaluated behind the others. -/
theorem callArgs_succ (es : List Expr) : Steady (evalCallArgs w (fuel + 1) es) := by
  unfold evalCallArgs
  split
  · refine .bind (.track w _) fun _ => .bind (h.args _) fun vs => ?_
    exact .bind (h.bare _) fun v => .pure _
  · exact h.args es

theorem args_succ (es : List Expr) : Steady (evalArgs w (fuel + 1) es) := by
  cases es with
  | nil =>
    rw [evalArgs]
    exact .pure _
  | cons e es =>
    rw [evalArgs]
    exact .bind (h.arg e) fun v => .bind (h.args es) fun vs => .pure _

/-- The items of an array, measured with each one unless all are literals. -/
theorem items_succ (constant : Bool) (size : DataSize) (done : List Value) (es : List Expr) :
    Steady (evalItems w (fuel + 1) constant size done es) := by
  cases es with
  | nil =>
    rw [evalItems]
    exact .pure _
  | cons e es =>
    rw [evalItems]
    refine .ite (.bind (h.bare e) fun v => ?_) (.bind (h.expr e) fun v => ?_)
    all_goals
      have hrest := fun size => h.items constant size (v :: done) es
      exact .ite (.bind (.checkSize w _ _) fun _ => hrest _) (hrest _)

/-- The same for the fields of a map. -/
theorem fields_succ (constant : Bool) (size : DataSize) (done : List (String × Value))
    (fields : List (Ident × Expr)) :
    Steady (evalFields w (fuel + 1) constant size done fields) := by
  cases fields with
  | nil =>
    rw [evalFields]
    exact .pure _
  | cons f fields =>
    rw [evalFields]
    refine .ite (.bind (h.bare f.2) fun v => ?_) (.bind (h.expr f.2) fun v => ?_)
    all_goals
      have hrest := fun size => h.fields constant size (insertField f.1.name v done) fields
      exact .ite (.bind (.checkSize w _ _) fun _ => hrest _) (hrest _)

theorem text_succ (done : String) (es : List Expr) : Steady (evalText w (fuel + 1) done es) := by
  cases es with
  | nil =>
    rw [evalText]
    exact .pure _
  | cons e es =>
    rw [evalText]
    exact .bind (h.expr e) fun v => .bind (.checkSize w _ _) fun _ => h.text _ es

theorem links_succ (links : List Link) : Steady (evalLinks w (fuel + 1) links) := by
  cases links with
  | nil =>
    rw [evalLinks]
    exact .pure _
  | cons l links =>
    cases l with
    | index e q =>
      rw [evalLinks]
      exact .bind (h.arg e) fun v => .bind (h.links links) fun as => .pure _
    | prop n q =>
      rw [evalLinks]
      exact .bind (h.links links) fun as => .pure _
    | method n args q =>
      rw [evalLinks]
      exact .bind (h.args args) fun vs => .bind (h.links links) fun as => .pure _

/-- A chain that starts at a variable is followed from its value, which is set behind it if the
chain changed it. -/
theorem chain_succ (base : Expr) (accesses : List Access) (assign : Option Assignment) :
    Steady (evalChain w (fuel + 1) base accesses assign) := by
  have hother : Steady
      (evalExpr w fuel base >>= fun v => do
        let r ← follow w fuel false v accesses assign
        return r.1) :=
    .bind (h.expr base) fun v => .bind (h.walk false v accesses assign) fun r => .pure _
  unfold evalChain
  split
  · refine .bind (.find? _) fun b? => ?_
    cases b? with
    | none => exact hother
    | some b =>
      refine .bind (.track w _) fun _ => .guard ?_
      refine .bind (.load b.slot) fun v => .bind (h.walk _ v accesses assign) fun r => ?_
      obtain ⟨v, changed⟩ := r
      cases changed with
      | none => exact .pure _
      | some new => exact .ite (.bind (.store _ new) fun _ => .pure _) (.pure _)
  · refine .bind (h.expr _) fun v => .bind (h.walk false v accesses assign) fun r => ?_
    obtain ⟨v, changed⟩ := r
    cases changed with
    | none => exact .pure _
    | some new => exact .bind (.modify fun _ => rfl) fun _ => .pure _
  · exact hother

omit h in
/-- The value that an assignment puts in the place of an old one. -/
theorem newValue (old : Computed Value) (a : Assignment) (p : Place) :
    Steady (follow.newValue w old a p) := by
  unfold follow.newValue
  refine .ite (.pure _) (.bind (.at_ p old) fun _ => ?_)
  exact .bind (.at_ _ _) fun v => .sized w v _

/-- A link to a part of a value follows the rest from there. -/
theorem part (constant : Bool) (old : Computed Value) (set : Value → Computed Value) (p : Place)
    (rest : List Access) (assign final : Option Assignment) :
    Steady (followPart w fuel constant old set p rest assign final) := by
  cases final with
  | some new => exact .bind (newValue old new p) fun x => .bind (.at_ p _) fun v => .pure _
  | none =>
    refine .bind (.at_ p old) fun sub => .bind (h.walk constant sub rest assign) fun x => ?_
    obtain ⟨r, changed⟩ := x
    cases changed with
    | none => exact .pure _
    | some x => exact .bind (.at_ p _) fun v => .pure _

/-- A chain is followed link by link. -/
theorem walk_succ (constant : Bool) (v : Value) (accesses : List Access)
    (assign : Option Assignment) :
    Steady (follow w (fuel + 1) constant v accesses assign) := by
  cases accesses with
  | nil =>
    rw [follow]
    exact .pure _
  | cons a rest =>
    rw [follow]
    refine .ite (.pure _) ?_
    cases a with
    | index idx p q => exact h.part constant _ _ p rest assign _
    | prop n q => exact h.part constant _ _ n.place rest assign _
    | method n args q =>
      refine .bind (h.method constant v n args) fun x => ?_
      exact .bind (h.walk false x.1 rest assign) fun y => .pure _

/-! ### Calls -/

/-- A method is a closure in the value, or is looked up by its name. -/
theorem method_succ (constant : Bool) (v : Value) (n : Ident) (args : List Value) :
    Steady (callMethod w (fuel + 1) constant v n args) := by
  unfold callMethod
  simp only
  split
  · refine .ite (.bind (h.closure _ _ _ _ _ _ _) fun x => .pure _) (h.byName constant _ n args)
  · exact h.closure _ _ _ _ _ _ _
  · exact h.byName constant _ n args

/-- By its name it is a function of the script, or a built-in one. -/
theorem byName_succ (constant : Bool) (v : Value) (n : Ident) (args : List Value) :
    Steady (callNamed w (fuel + 1) constant v n args) := by
  rw [callNamed]
  split
  · exact h.script _ _ args _
  · exact .ite (.fail _ _) (h.builtin n (v :: args))

theorem script_succ (f : FnDef) (this : Option Value) (args : List Value) (place : Place) :
    Steady (callScript w (fuel + 1) f this args place) := by
  rw [callScript]
  exact h.entered f.name _ this f.body place

theorem closure_succ (name : String) (captured : List (String × Nat)) (params : List String)
    (body : Stmt) (this : Option Value) (args : List Value) (place : Place) :
    Steady (callClosure w (fuel + 1) name captured params body this args place) := by
  rw [callClosure]
  exact .guard (h.entered name _ this body place)

omit h in
/-- A function is steady whatever its body does, since it runs in a scope of its own. -/
theorem entered_succ (name : String) (scope : List Binding) (this : Option Value) (body : Stmt)
    (place : Place) : Steady (enter w (fuel + 1) name scope this body place) := by
  rw [enter]
  refine .bind (.track w _) fun _ => .bind .get fun s => .guard fun t => ?_
  have hframe := Steady.inFunction scope this (evalBody w fuel body) t
  simp only [Eval.after] at hframe ⊢
  cases hr : Eval.inFunction scope this (evalBody w fuel body) t with
  | ok v u => simpa only [hr] using hframe
  | error e u => cases e <;> simpa only [hr] using hframe

/-- A closure is called for each of the items. -/
theorem overAll_succ (f : Value) (goOn : Value → Bool) (items : List Value) (place : Place) :
    Steady (overItems w (fuel + 1) f goOn items place) := by
  unfold overItems
  cases f
  case closure name captured params body =>
    refine .bind (.iterate ?_ _ _) fun all => ?_
    · rintro ⟨rest, index, done⟩
      cases rest with
      | nil => exact .pure _
      | cons item rest => exact .bind (h.closure _ _ _ _ _ _ _) fun x => .ite (.pure _) (.pure _)
    · cases all with
      | array each => exact .pure _
      | _ => exact .pure _
  all_goals exact .throw _

/-- A built-in function calls closures at most. -/
theorem builtin_succ (n : Ident) (vs : List Value) :
    Steady (callBuiltin w (fuel + 1) n vs) := by
  unfold callBuiltin
  refine .bind (.track w _) fun _ => ?_
  split
  -- `print`
  case h_1 => exact .bind (.modify fun _ => rfl) fun _ => .pure _
  -- `debug`
  case h_2 => exact .pure _
  -- `reduce`
  case h_9 items name captured params body initial _ =>
    refine .guard (.bind (.iterate ?_ _ _) fun v => .pure _)
    rintro ⟨rest, index, sum⟩
    cases rest with
    | nil => exact .pure _
    | cons v rest => exact .bind (h.closure _ _ _ _ _ _ _) fun x => .pure _
  -- a function that is not passed a closure
  case h_10 =>
    split
    · exact .fail _ _
    · refine .bind (.at_ _ _) fun x => ?_
      obtain ⟨v, changed⟩ := x
      have hgive : Steady (return (← Eval.sized w v n.place, changed)) :=
        .bind (.sized w v _) fun v => .pure _
      cases changed with
      | none => exact hgive
      | some x => exact .bind (.checkSize w _ _) fun _ => hgive
  all_goals exact .bind (h.overAll _ _ _ _) fun each => .pure _

/-- A call by name is one of a function of the script, of a closure or of a built-in function.
-/
theorem call_succ (n : Ident) (args : List Expr) : Steady (evalCall w (fuel + 1) n args) := by
  unfold evalCall
  refine .bind (h.callArgs args) fun vs => ?_
  split
  · exact .bind (h.script _ none vs _) fun x => .pure _
  · split
    case h_1 => exact .bind (h.closure _ _ _ _ _ _ _) fun x => .pure _
    case h_2 => exact .bind (.find? _) fun _ => .pure _
    case h_3 => exact .pure _
    case h_4 =>
      split
      · refine .bind (.find? _) fun b => ?_
        split <;> exact .pure _
      · exact .pure _
    case h_5 => split <;> exact .pure _
    case h_6 =>
      refine .bind (h.builtin n _) fun x => ?_
      simp only
      split
      · refine .bind (.find? _) fun b => ?_
        split
        · exact .bind (.store _ _) fun _ => .pure _
        · exact .pure _
      · exact .pure _

omit h in
theorem findModule (path : List Ident) : Steady (evalBare.findModule path) := by
  unfold evalBare.findModule
  split
  · exact .pure _
  · refine .bind .get fun s => ?_
    split
    · exact .pure _
    · exact .fail _ _

omit h in
/-- A function of a module gets values, and no scope. -/
theorem callModule (path : List Ident) (n : Ident) (vs : List Value) :
    Steady (evalBare.callModule w path n vs) := by
  unfold evalBare.callModule
  refine .bind (findModule path) fun m => ?_
  split
  · split
    · exact .fail _ _
    · refine .bind (.track w _) fun _ => ?_
      split
      · exact .sized w _ _
      · exact .throw _
  · exact .fail _ _

/-- Expressions have no names to bind, apart from those in their blocks. -/
theorem bare_succ (e : Expr) : Steady (evalBare w (fuel + 1) e) := by
  unfold evalBare
  cases e with
  | literal => exact .pure _
  | text => exact h.text _ _
  | array => exact .bind (h.items _ _ _ _) fun vs => .pure _
  | map => exact .bind (h.fields _ _ _ _) fun vs => .pure _
  | var path n =>
    cases path with
    | nil =>
      refine .bind (.find? _) fun b? => ?_
      split
      · exact .load _
      · split
        · exact .pure _
        · exact .fail _ _
    | cons => exact .bind (findModule _) fun _ => .fail _ _
  | this =>
    refine .bind .get fun s => ?_
    split
    · exact .pure _
    · exact .fail _ _
  | call path n args =>
    cases path with
    | nil => exact h.call n args
    | cons => exact .bind (h.callArgs args) fun vs => callModule _ n vs
  | unary => exact .bind (h.arg _) fun v => .at_ _ _
  | binary =>
    refine .bind (h.arg _) fun a => .bind (h.arg _) fun b => ?_
    exact .bind (.at_ _ _) fun v => .sized w v _
  | both =>
    refine .bind (h.condition _) fun _ => .ite ?_ (.pure _)
    exact .bind (h.condition _) fun _ => .pure _
  | either =>
    refine .bind (h.condition _) fun _ => .ite (.pure _) ?_
    exact .bind (h.condition _) fun _ => .pure _
  | orElse =>
    refine .bind (h.expr _) fun v => ?_
    split
    · exact h.expr _
    · exact .pure _
  | closure =>
    refine .bind (.mapM (fun n => .bind (.share? _) fun c => ?_) _) fun _ => .pure _
    split
    · exact .pure _
    · exact .fail _ _
  | block => exact h.body _
  | _ => exact .bind (h.links _) fun as => h.chain _ as none

/-! ### Blocks, cases and assignments -/

/-- Statements in a block of their own. -/
theorem body_succ (s : Stmt) : Steady (evalBody w (fuel + 1) s) := by
  unfold evalBody
  split
  · exact Fills.inBlock fun outer => h.stmts outer .unit _
  · exact .pure _
  · exact Fills.inBlock fun outer => h.stmt outer s

/-- The statements of a block fill it. -/
theorem stmts_succ (outer : Nat) (last : Value) (body : List Stmt) :
    Fills outer (evalStmts w (fuel + 1) outer last body) := by
  cases body with
  | nil =>
    rw [evalStmts]
    exact (Steady.pure _).toFills outer
  | cons s body =>
    rw [evalStmts]
    exact .bind (h.stmt outer s) fun v => h.stmts outer v body

theorem optional_succ (value : Option Expr) : Steady (evalOptional w (fuel + 1) value) := by
  cases value with
  | none =>
    rw [evalOptional]
    exact .pure _
  | some e =>
    rw [evalOptional]
    exact h.expr e

theorem cases_succ (cases : List Case) (otherwise : Option Stmt) :
    Steady (evalCases w (fuel + 1) cases otherwise) := by
  unfold evalCases
  split
  · cases otherwise with
    | none => exact .pure _
    | some s => exact h.body s
  · rename_i guard body rest
    have hrest : ∀ holds : Bool, Steady
        (if holds then evalBody w fuel body else evalCases w fuel rest otherwise) :=
      fun _ => .ite (h.body body) (h.cases rest otherwise)
    cases guard with
    | none => exact hrest true
    | some e => exact .bind (h.condition e) hrest

/-- An assignment sets a variable, `this` or a part of a value. -/
theorem assign_succ (op : String) (target : Expr) (v : Value) (place : Place) :
    Steady (evalAssign w (fuel + 1) op target v place) := by
  unfold evalAssign
  split
  · refine .bind (.find? _) fun b? => ?_
    cases b? with
    | none => exact .fail _ _
    | some b =>
      refine .guard (.bind (.track w _) fun _ => .ite (.store _ v) ?_)
      refine .bind (.load b.slot) fun old => .bind (.at_ _ _) fun x => ?_
      exact .bind (.sized w x _) fun new => .store _ new
  · refine .bind .get fun s => ?_
    split
    · exact .fail _ _
    · have hset : ∀ new : Value,
          Steady (modify fun s => { s with this := some new } : Eval Unit) :=
        fun new => .modify fun _ => rfl
      exact .ite (.bind (.pure v) hset) (.bind (.at_ _ _) hset)
  · exact .bind (h.links _) fun as => .bind (h.chain _ as _) fun _ => .pure _

/-! ### Statements -/

/-- One round of a loop that goes on from `next` if its body does not leave it. -/
theorem round {σ : Type} (next : σ) (body : Stmt) :
    Steady (do
      match ← Eval.oneRound (evalBody w fuel body) with
      | some v => return .inr v
      | none => return .inl next : Eval (σ ⊕ Value)) := by
  refine .bind (.oneRound (h.body body)) fun r => ?_
  cases r with
  | some v => exact .pure _
  | none => exact .pure _

theorem loop_succ (outer : Nat) (guard : Option Expr) (body : Stmt) (p : Place) :
    Steady (evalStmt w (fuel + 1) outer (.loop guard body p)) := by
  unfold evalStmt
  refine .bind (.track w _) fun _ => .iterate (fun _ => ?_) _ _
  have hround : ∀ always goOn : Bool, Steady (do
      if goOn then
        if body.isEmpty then
          if always then Eval.track w body.place
          return .inl ()
        match ← Eval.oneRound (evalBody w fuel body) with
        | some v => return .inr v
        | none => return .inl ()
      else return .inr .unit : Eval (Unit ⊕ Value)) := by
    intro always goOn
    refine .ite (.ite (.ite (.bind (.track w _) fun _ => .pure _) (.pure _)) ?_) (.pure _)
    exact h.round () body
  cases guard with
  | none => exact hround true true
  | some e => exact .ite (hround _ true) (.bind (h.condition e) fun goOn => hround _ goOn)

theorem until_succ (outer : Nat) (guard : Expr) (body : Stmt) (wanted : Bool) (p : Place) :
    Steady (evalStmt w (fuel + 1) outer (.until body guard wanted p)) := by
  unfold evalStmt
  refine .bind (.track w _) fun _ => .iterate (fun _ => ?_) _ _
  refine .bind (.oneRound (h.body body)) fun r => ?_
  cases r with
  | some v => exact .pure _
  | none => exact .bind (h.condition guard) fun _ => .ite (.pure _) (.pure _)

/-- The variable of a `for` is put in front once, and set in each round. -/
theorem eachRounds (name : Ident) (counter : Option Ident) (body : Stmt) (items : Items) :
    Stacks (eachRounds w fuel name counter body items) := by
  refine .bind (Eval.stacks_push _ _) fun _ => Steady.toStacks (.iterate ?_ _ _)
  rintro ⟨items, count⟩
  simp only
  cases items.next? with
  | none => exact .pure _
  | some r =>
    refine .ite (.bind (.track w _) fun _ => .pure _) ?_
    have hstore : Steady (do
        Eval.store name.name r.1
        match ← Eval.oneRound (evalBody w fuel body) with
        | some v => return .inr v
        | none => return .inl (r.2, count + 1) : Eval ((Items × Int) ⊕ Value)) :=
      .bind (.store _ r.1) fun _ => h.round _ body
    cases counter with
    | none => exact hstore
    | some c => exact .bind (.store _ _) fun _ => hstore

/-- So the loop as a whole, which is a block, is steady. -/
theorem each_succ (outer : Nat) (name : Ident) (counter : Option Ident) (source : Expr)
    (body : Stmt) (p : Place) :
    Steady (evalStmt w (fuel + 1) outer (.each name counter source body p)) := by
  unfold evalStmt
  refine .bind (.track w _) fun _ => .bind (h.expr source) fun v => ?_
  cases Items.ofValue? v with
  | none => exact .fail _ _
  | some items =>
    have hrounds := h.eachRounds name counter body items
    refine Stacks.inBlock ?_
    cases counter with
    | none => exact hrounds
    | some c => exact .bind (Eval.stacks_push _ _) fun _ => hrounds

/-- The caught failure is put in front for the handler. -/
theorem handle (name : Option Ident) (handler : Stmt) (f : RunFault) :
    Steady (handle w fuel name handler f) := by
  refine Stacks.inBlock ?_
  cases name with
  | none => exact (h.body handler).toStacks
  | some n => exact .bind (Eval.stacks_push _ _) fun _ => (h.body handler).toStacks

/-- What a body leaves when it fails is what was in scope, and a handler is a block. -/
theorem attempt_succ (outer : Nat) (body handler : Stmt) (name : Option Ident) (p : Place) :
    Steady (evalStmt w (fuel + 1) outer (.attempt body name handler p)) := by
  unfold evalStmt
  refine .bind (.track w _) fun _ => .bind (.attempt (h.body body)) fun r => ?_
  cases r with
  | ok v => exact .pure _
  | error f =>
    refine .guard (.bind (.attempt (h.handle name handler f)) fun r => ?_)
    cases r with
    | ok v => exact .pure _
    | error g =>
      simp only
      split <;> exact .throw _

/-- An alias is no name in scope. -/
theorem load_succ (outer : Nat) (source : Expr) (name : Option Ident) (p : Place) :
    Steady (evalStmt w (fuel + 1) outer (.load source name p)) := by
  unfold evalStmt
  refine .bind (.track w _) fun _ => .bind (h.expr source) fun v => ?_
  cases v with
  | str m =>
    refine .guard ?_
    cases name with
    | none => exact .pure _
    | some n => exact .bind (.modify fun _ => rfl) fun _ => .pure _
  | _ => exact .fail _ _

/-- A binding puts its name in scope, or takes the place of the one that has it. -/
theorem bind_succ (outer : Nat) (constant : Bool) (n : Ident) (value : Option Expr) (p : Place) :
    Fills outer (evalStmt w (fuel + 1) outer (.bind constant n value p)) := by
  have hbind : ∀ v : Value, Fills outer (do
      Eval.bind outer n.name constant v
      return .unit : Eval Value) :=
    fun v => .bind (Eval.fills_bind outer n.name constant v) fun _ => (Steady.pure _).toFills outer
  unfold evalStmt
  refine .bind ((Steady.track w _).toFills outer) fun _ => ?_
  cases value with
  | none => exact hbind .unit
  | some e => exact .bind ((h.expr e).toFills outer) hbind

/-- Only a binding puts a name in scope. -/
theorem stmt_succ (outer : Nat) (s : Stmt) : Fills outer (evalStmt w (fuel + 1) outer s) := by
  cases s with
  | bind constant n value p => exact h.bind_succ outer constant n value p
  | load source name p => exact (h.load_succ outer source name p).toFills outer
  | loop guard body p => exact (h.loop_succ outer guard body p).toFills outer
  | «until» body guard wanted p => exact (h.until_succ outer guard body wanted p).toFills outer
  | each name counter source body p =>
    exact (h.each_succ outer name counter source body p).toFills outer
  | attempt body name handler p =>
    exact (h.attempt_succ outer body handler name p).toFills outer
  | skip p | define n params body p =>
    exact Steady.toFills (.bind (.track w _) fun _ => .pure _) outer
  | expr e =>
    unfold evalStmt
    refine Steady.toFills (.bind (.track w _) fun _ => ?_) outer
    cases e with
    | call => exact h.bare _
    | unary => exact h.bare _
    | binary => exact h.bare _
    | _ => exact h.expr _
  | assign op target value p =>
    unfold evalStmt
    refine Steady.toFills (.bind (.track w _) fun _ => .bind (h.expr value) fun v => ?_) outer
    exact .bind (h.assign op target v p) fun _ => .pure _
  | block body p =>
    unfold evalStmt
    exact Steady.toFills (.bind (.track w _) fun _ => h.body _) outer
  | cond guard yes no p =>
    unfold evalStmt
    refine Steady.toFills (.bind (.track w _) fun _ => .bind (h.condition guard) fun _ => ?_) outer
    exact .ite (h.body yes) (h.body no)
  | choice subject cases otherwise p =>
    unfold evalStmt
    refine Steady.toFills (.bind (.track w _) fun _ => .bind (h.expr subject) fun v => ?_) outer
    exact h.cases _ otherwise
  | next p =>
    unfold evalStmt
    exact Steady.toFills (.bind (.track w _) fun _ => .throw _) outer
  | leave value p | give value p | raise value p =>
    unfold evalStmt
    refine Steady.toFills (.bind (.track w _) fun _ => .bind (h.optional value) fun v => ?_) outer
    exact .throw _

omit h in
/-- Evaluation is steady to any depth. -/
theorem all (fuel : Nat) : SteadyTo w fuel := by
  induction fuel with
  | zero => exact zero
  | succ fuel h =>
    exact
      { expr := h.expr_succ
        bare := h.bare_succ
        condition := h.condition_succ
        arg := h.arg_succ
        callArgs := h.callArgs_succ
        args := h.args_succ
        items := h.items_succ
        fields := h.fields_succ
        text := h.text_succ
        links := h.links_succ
        chain := h.chain_succ
        walk := h.walk_succ
        method := h.method_succ
        byName := h.byName_succ
        builtin := h.builtin_succ
        overAll := h.overAll_succ
        script := h.script_succ
        closure := h.closure_succ
        entered := entered_succ
        call := h.call_succ
        body := h.body_succ
        stmts := h.stmts_succ
        stmt := h.stmt_succ
        optional := h.optional_succ
        cases := h.cases_succ
        assign := h.assign_succ }

end SteadyTo

/-- However a script ends, no two of the variables it leaves have one name. -/
theorem run_nodup_names (w : World) (p : Program) (size : Nat) :
    (run w p size).2.names.Nodup := by
  have hall := (SteadyTo.all (w := { w with functions := p.simplifiedFunctions })
    ((16 * size + 64) * (w.limits.maxCallLevels + 2))).stmts 0 .unit p.simplified
  obtain ⟨inner, heq, hnodup⟩ := hall Machine.initial [] [] rfl rfl List.nodup_nil
  rw [List.append_nil, Eval.after] at heq
  rw [run]
  simp only
  split at heq <;> rename_i hrun <;> rw [hrun]
  · exact heq ▸ hnodup
  · rename_i e t
    have : t.names.Nodup := heq ▸ hnodup
    cases e <;> exact this

end LiveScene.Script
