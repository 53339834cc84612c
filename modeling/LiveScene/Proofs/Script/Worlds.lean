import LiveScene.Proofs.Script.Alike
import LiveScene.Script.Run

/-!
# Runs with other modules

What a script does depends on no more of the modules than it refers to: if
two worlds have the modules that it loads, and the members behind its aliases
are the same there, then it runs alike in both (`run_withModules`).

The functions of the evaluator call each other with less fuel, so all of them
go alike by one induction on it (`AlikeTo.all`). Each has a lemma for the step,
which goes by its cases; only loading a module and calling one of its
functions look at the modules (`AlikeTo.load_succ`, `AlikeTo.callModule`).
-/

namespace LiveScene.Script

open Eval (Alike PairKeeps)

/-- The world with other modules. -/
def World.withModules (w : World) (modules : List (String × ModuleFunctions)) : World :=
  { w with modules := modules }

@[simp] theorem World.functions_withModules (w : World)
    (modules : List (String × ModuleFunctions)) : (w.withModules modules).functions = w.functions :=
  rfl

/-- What a function of a module gives, if there is the module and the function. -/
def callOf (modules : List (String × ModuleFunctions)) (m n : String) (vs : List Value) :
    Option (Except String Value) :=
  (modules.lookup m).bind fun functions => functions n vs

/-- What is referred to is the same among modules and others: both have those that are loaded,
by the names written out, and give the same for the members that are used. What they give
refers to nothing else. -/
structure Suits (ok : Reference → Prop) (modules others : List (String × ModuleFunctions)) :
    Prop where
  named : Named ok
  load : ∀ m asName, ok (.load (some m) asName) →
    (modules.lookup m).isSome = true ∧ (others.lookup m).isSome = true
  member : ∀ a m n, ok (.member [a] n) → ok (.load (some m) (some a)) →
    ∀ vs, callOf others m n vs = callOf modules m n vs
  result : ∀ m n vs v, callOf modules m n vs = some (.ok v) → KeepsItems ok vs → v.Keeps ok

/-! ## Chains of accesses -/

/-- What a link refers to. -/
def Link.references : Link → List Reference
  | .index e _ => e.references
  | .prop .. => []
  | .method _ args _ => allReferences args

variable {ok : Reference → Prop}

/-- The arguments of an evaluated link keep to what is given. -/
def Access.Keeps (ok : Reference → Prop) : Access → Prop
  | .index v _ _ => v.Keeps ok
  | .prop .. => True
  | .method _ vs _ => KeepsItems ok vs

/-- Taking the links off an expression splits what it refers to between its base and them. -/
theorem Expr.keeps_links (e : Expr) {links : List Link} (he : Keeps ok e.references)
    (hl : ∀ l ∈ links, Keeps ok l.references) :
    Keeps ok (e.links links).1.references ∧ ∀ l ∈ (e.links links).2, Keeps ok l.references := by
  unfold Expr.links
  split
  · rename_i b i q
    simp only [Expr.references, keeps_append] at he
    exact b.keeps_links he.1 (List.forall_mem_cons.2 ⟨he.2, hl⟩)
  · rename_i b n q
    exact b.keeps_links he (List.forall_mem_cons.2 ⟨keeps_nil, hl⟩)
  · rename_i b n args q
    simp only [Expr.references, keeps_append] at he
    exact b.keeps_links he.1 (List.forall_mem_cons.2 ⟨he.2, hl⟩)
  · exact ⟨he, hl⟩

/-- A link to a part of a value: what it is, how it is set, and the links behind it. -/
def followPart (w : World) (fuel : Nat) (constant : Bool) (old : Computed Value)
    (set : Value → Computed Value) (place : Place) (rest : List Access)
    (assign final : Option Assignment) : Eval (Value × Option Value) :=
  match final with
  | some new => do
    let x ← follow.newValue w old new place
    return (.unit, some (← Eval.at_ place (set x)))
  | none => do
    let sub ← Eval.at_ place old
    let (r, changed) ← follow w fuel constant sub rest assign
    match changed with
    | some x => return (r, some (← Eval.at_ place (set x)))
    | none => return (r, none)

/-- The base of a chain and its links refer to what the chain does. -/
theorem Expr.keeps_chain {e : Expr} (he : Keeps ok e.references) :
    Keeps ok (e.links []).1.references ∧ ∀ l ∈ (e.links []).2, Keeps ok l.references :=
  e.keeps_links he (List.forall_mem_nil _)

/-- Where nothing is assigned, all that is keeps to what is given. -/
theorem Assignment.keeps_none : ∀ a ∈ (none : Option Assignment), a.value.Keeps ok := by
  rintro _ ⟨⟩

/-! ## Items of a loop, cases and caught failures -/

/-- The items that a loop goes through keep to what is given. -/
def Items.Keeps (ok : Reference → Prop) : Items → Prop
  | .list items => KeepsItems ok items
  | .count .. => True

/-- The items of a value are those it holds, or numbers. -/
theorem Items.keeps_ofValue? {v : Value} (hv : v.Keeps ok) : ∀ i ∈ ofValue? v, i.Keeps ok := by
  unfold ofValue?
  split <;> rintro _ ⟨⟩
  · exact Value.keeps_array.1 hv
  · intro v hv
    obtain ⟨c, -, rfl⟩ := List.mem_map.1 hv
    exact Value.keeps_char
  · trivial

/-- So are the next one and those behind it. -/
theorem Items.keeps_next? {items : Items} (hi : items.Keeps ok) :
    ∀ r ∈ items.next?, r.1.Keeps ok ∧ r.2.Keeps ok := by
  unfold next?
  split
  · rintro _ ⟨⟩
  · rintro _ ⟨⟩
    exact keepsItems_cons.1 hi
  · split_ifs
    · rintro _ ⟨⟩
      exact ⟨Value.keeps_int, trivial⟩
    · rintro _ ⟨⟩

/-- The rounds of a loop over items, with the counter in scope if there is one. -/
def eachRounds (w : World) (fuel : Nat) (name : Ident) (counter : Option Ident) (body : Stmt)
    (items : Items) : Eval Value := do
  Eval.push name.name .unit
  Eval.iterate (fun (items, count) => do
    match Items.next? items with
    | none => return .inr .unit
    | some (v, items) =>
      if body.isEmpty then
        Eval.track w body.place
        return .inl (items, count + 1)
      match counter with
      | some c => Eval.store c.name (.int count)
      | none => pure ()
      Eval.store name.name v
      match ← Eval.oneRound (evalBody w fuel body) with
      | some v => return .inr v
      | none => return .inl (items, count + 1)) (w.rounds) (items, (0 : Int))

/-- The handler of a failure, with the variable for it if there is one. -/
def handle (w : World) (fuel : Nat) (name : Option Ident) (handler : Stmt) (f : RunFault) :
    Eval Value :=
  Eval.inBlock do
    match name with
    | some n => Eval.push n.name f.caught
    | none => pure ()
    evalBody w fuel handler

/-- Leaving out cases leaves out what they refer to. -/
theorem keeps_filterCases {cases : List Case} (p : Case → Bool)
    (hc : Keeps ok (caseReferences cases)) : Keeps ok (caseReferences (cases.filter p)) := by
  induction cases with
  | nil => exact hc
  | cons c cases ih =>
    obtain ⟨values, ranges, guard, body⟩ := c
    simp only [caseReferences, keeps_append] at hc
    rw [List.filter_cons]
    split_ifs
    · simp only [caseReferences, keeps_append]
      exact ⟨hc.1, hc.2.1, ih hc.2.2⟩
    · exact ih hc.2.2

/-- The cases for a value are some of those there are. -/
theorem keeps_casesFor (v : Value) {cases : List Case} (hc : Keeps ok (caseReferences cases)) :
    Keeps ok (caseReferences (casesFor v cases)) := by
  unfold casesFor
  simp only
  split_ifs
  · exact keeps_filterCases _ hc
  · exact keeps_filterCases _ hc

/-- The details of a failure are texts and numbers. -/
theorem Cause.keeps_details (c : Cause) : KeepsEntries ok c.details := by
  unfold details
  split <;> simp [KeepsEntries]

/-- What a handler gets is made of texts and numbers, or was thrown. -/
theorem RunFault.keeps_caught {f : RunFault} (hf : f.cause.Keeps ok) : f.caught.Keeps ok := by
  unfold caught
  split
  · rename_i v hv
    rwa [hv] at hf
  · exact Value.keeps_str
  · refine Value.keeps_map.2 (keepsEntries_nil.joinFields ?_)
    simp only [keepsEntries_cons, keepsEntries_append]
    refine ⟨Value.keeps_str, Value.keeps_str, ?_, ?_⟩
    · split <;> simp
    · split
      · simp
      · simpa using Cause.keeps_details _

/-- Parameters hold the arguments. -/
theorem keeps_parameters (params : List String) {args : List Value} (ha : KeepsItems ok args) :
    ∀ b ∈ (params.zip args).reverse.map fun (name, v) => (⟨name, false, .own v⟩ : Binding),
      b.slot.Keeps ok := by
  intro b hb
  obtain ⟨⟨name, v⟩, hmem, rfl⟩ := List.mem_map.1 hb
  exact ha v (List.of_mem_zip (List.mem_reverse.1 hmem)).2

/-! ## Evaluation to a depth -/

/-- Evaluation up to a depth goes alike in a world and with other modules. -/
structure AlikeTo (ok : Reference → Prop) (w : World)
    (modules : List (String × ModuleFunctions)) (fuel : Nat) : Prop where
  expr : ∀ {e}, Keeps ok e.references →
    Alike ok (evalExpr w fuel e) (evalExpr (w.withModules modules) fuel e) (Value.Keeps ok)
  bare : ∀ {e}, Keeps ok e.references →
    Alike ok (evalBare w fuel e) (evalBare (w.withModules modules) fuel e) (Value.Keeps ok)
  condition : ∀ {e}, Keeps ok e.references →
    Alike ok (evalCondition w fuel e) (evalCondition (w.withModules modules) fuel e) fun _ => True
  arg : ∀ {e}, Keeps ok e.references →
    Alike ok (evalArg w fuel e) (evalArg (w.withModules modules) fuel e) (Value.Keeps ok)
  callArgs : ∀ {es}, Keeps ok (allReferences es) →
    Alike ok (evalCallArgs w fuel es) (evalCallArgs (w.withModules modules) fuel es)
      (KeepsItems ok)
  args : ∀ {es}, Keeps ok (allReferences es) →
    Alike ok (evalArgs w fuel es) (evalArgs (w.withModules modules) fuel es) (KeepsItems ok)
  items : ∀ constant size {done es}, KeepsItems ok done → Keeps ok (allReferences es) →
    Alike ok (evalItems w fuel constant size done es)
      (evalItems (w.withModules modules) fuel constant size done es) (KeepsItems ok)
  fields : ∀ constant size {done fields}, KeepsEntries ok done → Keeps ok (fieldReferences fields) →
    Alike ok (evalFields w fuel constant size done fields)
      (evalFields (w.withModules modules) fuel constant size done fields) (KeepsEntries ok)
  text : ∀ done {es}, Keeps ok (allReferences es) →
    Alike ok (evalText w fuel done es) (evalText (w.withModules modules) fuel done es)
      (Value.Keeps ok)
  links : ∀ {links : List Link}, (∀ l ∈ links, Keeps ok l.references) →
    Alike ok (evalLinks w fuel links) (evalLinks (w.withModules modules) fuel links)
      fun accesses => ∀ a ∈ accesses, a.Keeps ok
  chain : ∀ {base accesses} {assign : Option Assignment}, Keeps ok base.references →
    (∀ a ∈ accesses, a.Keeps ok) → (∀ a ∈ assign, a.value.Keeps ok) →
    Alike ok (evalChain w fuel base accesses assign)
      (evalChain (w.withModules modules) fuel base accesses assign) (Value.Keeps ok)
  walk : ∀ constant {v accesses} {assign : Option Assignment}, v.Keeps ok →
    (∀ a ∈ accesses, a.Keeps ok) → (∀ a ∈ assign, a.value.Keeps ok) →
    Alike ok (follow w fuel constant v accesses assign)
      (follow (w.withModules modules) fuel constant v accesses assign) (PairKeeps ok)
  method : ∀ constant n {v args}, v.Keeps ok → KeepsItems ok args →
    Alike ok (callMethod w fuel constant v n args)
      (callMethod (w.withModules modules) fuel constant v n args) (PairKeeps ok)
  byName : ∀ constant n {v args}, v.Keeps ok → KeepsItems ok args →
    Alike ok (callNamed w fuel constant v n args)
      (callNamed (w.withModules modules) fuel constant v n args) (PairKeeps ok)
  builtin : ∀ n {args}, KeepsItems ok args →
    Alike ok (callBuiltin w fuel n args) (callBuiltin (w.withModules modules) fuel n args)
      (PairKeeps ok)
  overAll : ∀ goOn place {f items}, f.Keeps ok → KeepsItems ok items →
    Alike ok (overItems w fuel f goOn items place)
      (overItems (w.withModules modules) fuel f goOn items place) (KeepsItems ok)
  script : ∀ place {f this args}, Keeps ok f.body.references → (∀ v ∈ this, v.Keeps ok) →
    KeepsItems ok args → Alike ok (callScript w fuel f this args place)
      (callScript (w.withModules modules) fuel f this args place) (PairKeeps ok)
  closure : ∀ name captured params place {body this args}, Keeps ok body.references →
    (∀ v ∈ this, v.Keeps ok) → KeepsItems ok args →
    Alike ok (callClosure w fuel name captured params body this args place)
      (callClosure (w.withModules modules) fuel name captured params body this args place)
      (PairKeeps ok)
  entered : ∀ name place {scope this body}, (∀ b ∈ scope, b.slot.Keeps ok) →
    (∀ v ∈ this, v.Keeps ok) → Keeps ok body.references →
    Alike ok (enter w fuel name scope this body place)
      (enter (w.withModules modules) fuel name scope this body place) (PairKeeps ok)
  call : ∀ n {args}, Keeps ok (allReferences args) →
    Alike ok (evalCall w fuel n args) (evalCall (w.withModules modules) fuel n args)
      (Value.Keeps ok)
  body : ∀ {s}, Keeps ok s.references →
    Alike ok (evalBody w fuel s) (evalBody (w.withModules modules) fuel s) (Value.Keeps ok)
  stmts : ∀ outer {last body}, last.Keeps ok → Keeps ok (stmtReferences body) →
    Alike ok (evalStmts w fuel outer last body)
      (evalStmts (w.withModules modules) fuel outer last body) (Value.Keeps ok)
  stmt : ∀ outer {s}, Keeps ok s.references →
    Alike ok (evalStmt w fuel outer s) (evalStmt (w.withModules modules) fuel outer s)
      (Value.Keeps ok)
  optional : ∀ {value}, Keeps ok (optionReferences value) →
    Alike ok (evalOptional w fuel value) (evalOptional (w.withModules modules) fuel value)
      (Value.Keeps ok)
  cases : ∀ {cases otherwise}, Keeps ok (caseReferences cases) →
    Keeps ok (elseReferences otherwise) →
    Alike ok (evalCases w fuel cases otherwise)
      (evalCases (w.withModules modules) fuel cases otherwise) (Value.Keeps ok)
  assign : ∀ op place {target v}, Keeps ok target.references → v.Keeps ok →
    Alike ok (evalAssign w fuel op target v place)
      (evalAssign (w.withModules modules) fuel op target v place) fun _ => True

variable {w : World} {modules : List (String × ModuleFunctions)} {fuel : Nat}

namespace AlikeTo

/-- Without fuel both stop. -/
theorem zero : AlikeTo ok w modules 0 := by
  constructor <;> intros <;> exact .endless

variable (h : AlikeTo ok w modules fuel)

include h

/-! ### Expressions and their parts -/

/-- An expression is counted and then evaluated. -/
theorem expr_succ {e : Expr} (he : Keeps ok e.references) :
    Alike ok (evalExpr w (fuel + 1) e) (evalExpr (w.withModules modules) (fuel + 1) e)
      (Value.Keeps ok) := by
  rw [evalExpr, evalExpr]
  exact .bind (.track w _) fun _ _ => h.bare he

/-- A condition is a truth value in both, or both fail. -/
theorem condition_succ {e : Expr} (he : Keeps ok e.references) :
    Alike ok (evalCondition w (fuel + 1) e) (evalCondition (w.withModules modules) (fuel + 1) e)
      fun _ => True := by
  rw [evalCondition, evalCondition]
  refine .bind (h.expr he) fun v _ => ?_
  cases v with
  | bool b => exact .pure trivial
  | _ => exact .fail (by trivial) _

theorem arg_succ {e : Expr} (he : Keeps ok e.references) :
    Alike ok (evalArg w (fuel + 1) e) (evalArg (w.withModules modules) (fuel + 1) e)
      (Value.Keeps ok) := by
  rw [evalArg, evalArg]
  exact .ite (fun _ => h.bare he) fun _ => h.expr he

theorem callArgs_succ {es : List Expr} (hes : Keeps ok (allReferences es)) :
    Alike ok (evalCallArgs w (fuel + 1) es) (evalCallArgs (w.withModules modules) (fuel + 1) es)
      (KeepsItems ok) := by
  unfold evalCallArgs
  split
  · rename_i path n rest
    simp only [allReferences, keeps_append] at hes
    refine .bind (.track w _) fun _ _ => .bind (h.args hes.2) fun vs hvs => ?_
    exact .bind (h.bare hes.1) fun v hv => .pure (keepsItems_cons.2 ⟨hv, hvs⟩)
  · exact h.args hes

theorem args_succ {es : List Expr} (hes : Keeps ok (allReferences es)) :
    Alike ok (evalArgs w (fuel + 1) es) (evalArgs (w.withModules modules) (fuel + 1) es)
      (KeepsItems ok) := by
  cases es with
  | nil =>
    rw [evalArgs, evalArgs]
    exact .pure keepsItems_nil
  | cons e es =>
    simp only [allReferences, keeps_append] at hes
    rw [evalArgs, evalArgs]
    refine .bind (h.arg hes.1) fun v hv => .bind (h.args hes.2) fun vs hvs => ?_
    exact .pure (keepsItems_cons.2 ⟨hv, hvs⟩)

theorem items_succ (constant : Bool) (size : DataSize) {done : List Value} {es : List Expr}
    (hd : KeepsItems ok done) (hes : Keeps ok (allReferences es)) :
    Alike ok (evalItems w (fuel + 1) constant size done es)
      (evalItems (w.withModules modules) (fuel + 1) constant size done es) (KeepsItems ok) := by
  cases es with
  | nil =>
    rw [evalItems, evalItems]
    exact .pure fun v hv => hd v (List.mem_reverse.1 hv)
  | cons e es =>
    simp only [allReferences, keeps_append] at hes
    rw [evalItems, evalItems]
    refine .ite (fun _ => .bind (h.bare hes.1) fun v hv => ?_)
      fun _ => .bind (h.expr hes.1) fun v hv => ?_
    all_goals
      have hrest := fun size => h.items constant size (keepsItems_cons.2 ⟨hv, hd⟩) hes.2
      exact .ite (fun _ => .bind (.checkSize w _ _) fun _ _ => hrest _) fun _ => hrest _

theorem fields_succ (constant : Bool) (size : DataSize) {done : List (String × Value)}
    {fields : List (Ident × Expr)} (hd : KeepsEntries ok done)
    (hf : Keeps ok (fieldReferences fields)) :
    Alike ok (evalFields w (fuel + 1) constant size done fields)
      (evalFields (w.withModules modules) (fuel + 1) constant size done fields)
      (KeepsEntries ok) := by
  cases fields with
  | nil =>
    rw [evalFields, evalFields]
    exact .pure hd
  | cons f fields =>
    simp only [fieldReferences, keeps_append] at hf
    rw [evalFields, evalFields]
    refine .ite (fun _ => .bind (h.bare hf.1) fun v hv => ?_)
      fun _ => .bind (h.expr hf.1) fun v hv => ?_
    all_goals
      have hrest := fun size => h.fields constant size (hd.insertField f.1.name hv) hf.2
      exact .ite (fun _ => .bind (.checkSize w _ _) fun _ _ => hrest _) fun _ => hrest _

theorem text_succ (done : String) {es : List Expr} (hes : Keeps ok (allReferences es)) :
    Alike ok (evalText w (fuel + 1) done es) (evalText (w.withModules modules) (fuel + 1) done es)
      (Value.Keeps ok) := by
  cases es with
  | nil =>
    rw [evalText, evalText]
    exact .pure Value.keeps_str
  | cons e es =>
    simp only [allReferences, keeps_append] at hes
    rw [evalText, evalText]
    refine .bind (h.expr hes.1) fun v _ => .bind (.checkSize w _ _) fun _ _ => ?_
    exact h.text _ hes.2

/-- What is in the links is evaluated before the chain is followed. -/
theorem links_succ {links : List Link} (hl : ∀ l ∈ links, Keeps ok l.references) :
    Alike ok (evalLinks w (fuel + 1) links) (evalLinks (w.withModules modules) (fuel + 1) links)
      fun accesses => ∀ a ∈ accesses, a.Keeps ok := by
  cases links with
  | nil =>
    rw [evalLinks, evalLinks]
    exact .pure (List.forall_mem_nil _)
  | cons l links =>
    obtain ⟨hl, hrest⟩ := List.forall_mem_cons.1 hl
    have hcons : ∀ {a : Access} {as : List Access}, a.Keeps ok → (∀ a ∈ as, a.Keeps ok) →
        ∀ b ∈ a :: as, b.Keeps ok := fun ha has => List.forall_mem_cons.2 ⟨ha, has⟩
    cases l with
    | index e q =>
      rw [evalLinks, evalLinks]
      exact .bind (h.arg hl) fun v hv => .bind (h.links hrest) fun as has => .pure (hcons hv has)
    | prop n q =>
      rw [evalLinks, evalLinks]
      exact .bind (h.links hrest) fun as has => .pure (hcons trivial has)
    | method n args q =>
      rw [evalLinks, evalLinks]
      exact .bind (h.args hl) fun vs hvs => .bind (h.links hrest) fun as has =>
        .pure (hcons hvs has)

/-- A chain that starts at a variable is followed from its value, which is set behind it if the
chain changed it. -/
theorem chain_succ {base : Expr} {accesses : List Access} {assign : Option Assignment}
    (hb : Keeps ok base.references) (ha : ∀ a ∈ accesses, a.Keeps ok)
    (hn : ∀ a ∈ assign, a.value.Keeps ok) :
    Alike ok (evalChain w (fuel + 1) base accesses assign)
      (evalChain (w.withModules modules) (fuel + 1) base accesses assign) (Value.Keeps ok) := by
  have hother : Alike ok
      (evalExpr w fuel base >>= fun v => do
        let r ← follow w fuel false v accesses assign
        return r.1)
      (evalExpr (w.withModules modules) fuel base >>= fun v => do
        let r ← follow (w.withModules modules) fuel false v accesses assign
        return r.1) (Value.Keeps ok) :=
    .bind (h.expr hb) fun v hv => .bind (h.walk false hv ha hn) fun r hr => .pure hr.1
  unfold evalChain
  split
  · rename_i n
    refine .bind (.find? _) fun b? hb? => ?_
    cases b? with
    | none => exact hother
    | some b =>
      refine .bind (.track w _) fun _ _ => .guard (by trivial) fun _ => ?_
      refine .bind (.load (hb? b rfl)) fun v hv => .bind (h.walk _ hv ha hn) fun r hr => ?_
      obtain ⟨v, changed⟩ := r
      cases changed with
      | none => exact .pure hr.1
      | some new =>
        exact .ite (fun _ => .bind (.store _ (hr.2 new rfl)) fun _ _ => .pure hr.1)
          fun _ => .pure hr.1
  · refine .bind (h.expr hb) fun v hv => .bind (h.walk false hv ha hn) fun r hr => ?_
    obtain ⟨v, changed⟩ := r
    cases changed with
    | none => exact .pure hr.1
    | some new =>
      refine .bind (.modify fun s hs => ?_) fun _ _ => .pure hr.1
      exact ⟨hs.scope, hs.cells, fun x hx => hr.2 x hx, hs.aliases⟩
  · exact hother

omit h in
/-- The value that an assignment puts in the place of an old one. -/
theorem newValue {old : Computed Value} (ho : old.Keeps ok) {a : Assignment}
    (ha : a.value.Keeps ok) (p : Place) :
    Alike ok (follow.newValue w old a p) (follow.newValue (w.withModules modules) old a p)
      (Value.Keeps ok) := by
  unfold follow.newValue
  refine .ite (fun _ => .pure ha) fun _ => .bind (.value p ho) fun x hx => ?_
  exact .bind (.value _ (assignOp_keeps a.op hx ha)) fun v hv => .sized w hv _

/-- A link to a part of a value follows the rest from there. -/
theorem part (constant : Bool) {rest : List Access} {assign final : Option Assignment}
    {old : Computed Value} {set : Value → Computed Value} (p : Place) (ho : old.Keeps ok)
    (hset : ∀ x, x.Keeps ok → (set x).Keeps ok) (hrest : ∀ a ∈ rest, a.Keeps ok)
    (hn : ∀ a ∈ assign, a.value.Keeps ok) (hf : ∀ a ∈ final, a.value.Keeps ok) :
    Alike ok (followPart w fuel constant old set p rest assign final)
      (followPart (w.withModules modules) fuel constant old set p rest assign final)
      (PairKeeps ok) := by
  have hgive : ∀ {r v : Value}, r.Keeps ok → v.Keeps ok → PairKeeps ok (r, some v) :=
    fun hr hv => ⟨hr, fun _ hx => Option.some.inj hx ▸ hv⟩
  cases final with
  | some new =>
    refine .bind (newValue ho (hf new rfl) p) fun x hx => .bind (.value p (hset x hx)) ?_
    exact fun v hv => .pure (hgive Value.keeps_unit hv)
  | none =>
    refine .bind (.value p ho) fun sub hs => .bind (h.walk constant hs hrest hn) fun x hx => ?_
    obtain ⟨r, changed⟩ := x
    cases changed with
    | none => exact .pure (PairKeeps.unchanged hx.1)
    | some x =>
      exact .bind (.value p (hset x (hx.2 x rfl))) fun v hv => .pure (hgive hx.1 hv)

/-- A chain is followed link by link. -/
theorem walk_succ (constant : Bool) {v : Value} {accesses : List Access}
    {assign : Option Assignment} (hv : v.Keeps ok) (ha : ∀ a ∈ accesses, a.Keeps ok)
    (hn : ∀ a ∈ assign, a.value.Keeps ok) :
    Alike ok (follow w (fuel + 1) constant v accesses assign)
      (follow (w.withModules modules) (fuel + 1) constant v accesses assign) (PairKeeps ok) := by
  cases accesses with
  | nil =>
    rw [follow, follow]
    exact .pure (PairKeeps.unchanged hv)
  | cons a rest =>
    obtain ⟨ha, hrest⟩ := List.forall_mem_cons.1 ha
    have hfinal : ∀ a ∈ (if rest.isEmpty then assign else none), a.value.Keeps ok := by
      split_ifs
      · exact hn
      · exact Assignment.keeps_none
    rw [follow, follow]
    refine .ite (fun _ => .pure (PairKeeps.unchanged Value.keeps_unit)) fun _ => ?_
    cases a with
    | index idx p q =>
      exact h.part constant p (entry_keeps hv idx) (fun x hx => setEntry_keeps hv hx idx) hrest hn
        hfinal
    | prop n q =>
      exact h.part constant n.place (property_keeps hv n.name)
        (fun x hx => setProperty_keeps hv hx n.name) hrest hn hfinal
    | method n args q =>
      refine .bind (h.method constant n hv ha) fun x hx => ?_
      exact .bind (h.walk false hx.1 hrest hn) fun y hy => .pure ⟨hy.1, hx.2⟩

/-! ### Calls -/

/-- A method is a closure in the value, or is looked up by its name. -/
theorem method_succ (constant : Bool) (n : Ident) {v : Value} {args : List Value}
    (hv : v.Keeps ok) (ha : KeepsItems ok args) :
    Alike ok (callMethod w (fuel + 1) constant v n args)
      (callMethod (w.withModules modules) (fuel + 1) constant v n args) (PairKeeps ok) := by
  have hself : ∀ x ∈ some v, x.Keeps ok := fun x hx => Option.some.inj hx ▸ hv
  unfold callMethod
  cases v with
  | closure name captured params body =>
    refine .ite (fun _ => ?_) fun _ => h.byName constant n hv ha
    exact .bind (h.closure name captured params _ hv (fun _ => keeps_none) ha) fun x hx =>
      .pure (PairKeeps.unchanged hx.1)
  | map fields =>
    simp only
    cases hl : fields.lookup n.name with
    | none => exact h.byName constant n hv ha
    | some f =>
      have hf := (Value.keeps_map.1 hv).lookup hl
      cases f with
      | closure name captured params body => exact h.closure name captured params _ hf hself ha
      | _ => exact h.byName constant n hv ha
  | _ => exact h.byName constant n hv ha

/-- By its name it is a function of the script, or a built-in one. -/
theorem byName_succ (hf : ∀ f ∈ w.functions, Keeps ok f.body.references) (constant : Bool)
    (n : Ident) {v : Value} {args : List Value} (hv : v.Keeps ok) (ha : KeepsItems ok args) :
    Alike ok (callNamed w (fuel + 1) constant v n args)
      (callNamed (w.withModules modules) (fuel + 1) constant v n args) (PairKeeps ok) := by
  have hargs : KeepsItems ok (v :: args) := keepsItems_cons.2 ⟨hv, ha⟩
  rw [callNamed, callNamed, World.withModules]
  simp only
  split
  · rename_i f hfind
    exact h.script _ (hf f (List.mem_of_find?_eq_some hfind))
      (fun x hx => Option.some.inj hx ▸ hv) ha
  · exact .ite (fun _ => .fail (by trivial) _) fun _ => h.builtin n hargs

/-- The functions of the script are the same in both worlds. -/
theorem script_succ (place : Place) {f : FnDef} {this : Option Value} {args : List Value}
    (hf : Keeps ok f.body.references) (ht : ∀ v ∈ this, v.Keeps ok) (ha : KeepsItems ok args) :
    Alike ok (callScript w (fuel + 1) f this args place)
      (callScript (w.withModules modules) (fuel + 1) f this args place) (PairKeeps ok) := by
  rw [callScript, callScript]
  exact h.entered f.name place (keeps_parameters f.params ha) ht hf

theorem closure_succ (name : String) (captured : List (String × Nat)) (params : List String)
    (place : Place) {body : Stmt} {this : Option Value} {args : List Value}
    (hb : Keeps ok body.references) (ht : ∀ v ∈ this, v.Keeps ok) (ha : KeepsItems ok args) :
    Alike ok (callClosure w (fuel + 1) name captured params body this args place)
      (callClosure (w.withModules modules) (fuel + 1) name captured params body this args place)
      (PairKeeps ok) := by
  rw [callClosure, callClosure]
  refine .guard (by trivial) fun _ => h.entered name place ?_ ht hb
  intro b hb
  rcases List.mem_append.1 hb with hb | hb
  · exact keeps_parameters params ha b hb
  · obtain ⟨c, -, rfl⟩ := List.mem_map.1 hb
    exact Slot.keeps_shared

/-- A function goes alike if its body does, which starts from its parameters. -/
theorem entered_succ (name : String) (place : Place) {scope : List Binding}
    {this : Option Value} {body : Stmt} (hs : ∀ b ∈ scope, b.slot.Keeps ok)
    (ht : ∀ v ∈ this, v.Keeps ok) (hb : Keeps ok body.references) :
    Alike ok (enter w (fuel + 1) name scope this body place)
      (enter (w.withModules modules) (fuel + 1) name scope this body place) (PairKeeps ok) := by
  rw [enter, enter]
  refine .bind (.track w _) fun _ _ => .bind .get fun s _ => .guard (by trivial) fun _ => ?_
  -- a failure gets a frame for the call on its way out, and keeps its cause
  intro t ht'
  obtain ⟨heq, hres⟩ := Alike.inFunction hs ht (h.body hb) t ht'
  simp only [← heq, true_and]
  split
  · rename_i f u hr
    have hcause : (f.outOf name place).cause = f.cause := by
      unfold RunFault.outOf
      split_ifs <;> rfl
    rw [hr] at hres
    exact ⟨hres.1, by simpa [Stop.Keeps, hcause] using hres.2⟩
  · exact hres

/-- A closure is called for each of the items. -/
theorem overAll_succ (goOn : Value → Bool) (place : Place) {f : Value} {items : List Value}
    (hf : f.Keeps ok) (hi : KeepsItems ok items) :
    Alike ok (overItems w (fuel + 1) f goOn items place)
      (overItems (w.withModules modules) (fuel + 1) f goOn items place) (KeepsItems ok) := by
  unfold overItems
  cases f
  case closure name captured params body =>
    refine .bind (.iterate (fun a => KeepsItems ok a.1 ∧ KeepsItems ok a.2.2) ?_ _ _
      ⟨hi, keepsItems_nil⟩) fun all hall => ?_
    · rintro ⟨rest, index, done⟩ ⟨hrest, hdone⟩
      have hreverse : ∀ {vs : List Value}, KeepsItems ok vs → (Value.array vs.reverse).Keeps ok :=
        fun hvs => Value.keeps_array.2 fun v hv => hvs v (List.mem_reverse.1 hv)
      cases rest with
      | nil => exact .pure (hreverse hdone)
      | cons item rest =>
        obtain ⟨hitem, hrest⟩ := keepsItems_cons.1 hrest
        simp only
        split
        all_goals
          refine .bind (h.closure name captured params place hf ?_ ?_) fun x hx => ?_
          · simp [hitem]
          · simp [hitem]
          · have hmore := keepsItems_cons.2 ⟨hx.1, hdone⟩
            exact .ite (fun _ => .pure ⟨hrest, hmore⟩) fun _ => .pure (hreverse hmore)
    · cases all with
      | array each => exact .pure (Value.keeps_array.1 hall)
      | _ => exact .pure keepsItems_nil
  all_goals exact .endless

/-- A built-in function calls closures at most, and gives no more than it gets. -/
theorem builtin_succ (n : Ident) {vs : List Value} (ha : KeepsItems ok vs) :
    Alike ok (callBuiltin w (fuel + 1) n vs)
      (callBuiltin (w.withModules modules) (fuel + 1) n vs) (PairKeeps ok) := by
  have hresult : ∀ {v : Value}, v.Keeps ok → PairKeeps ok (v, none) :=
    fun hv => .unchanged hv
  have hfirst : ∀ {each items : List Value} {p : Value × Value}, KeepsItems ok items →
      p ∈ items.zip each → p.1.Keeps ok :=
    fun hi hp => hi _ (List.of_mem_zip hp).1
  unfold callBuiltin
  refine .bind (.track w _) fun _ _ => ?_
  split <;> (try simp only [keepsItems_cons, Value.keeps_array] at ha)
  -- `print`
  case h_1 =>
    refine .bind (.modify fun s hs => ?_) fun _ _ => .pure (hresult Value.keeps_unit)
    exact ⟨hs.scope, hs.cells, hs.this, hs.aliases⟩
  -- `debug`
  case h_2 => exact .pure (hresult Value.keeps_unit)
  -- `map`
  case h_3 =>
    exact .bind (h.overAll _ _ ha.2.1 ha.1) fun each he => .pure (hresult (Value.keeps_array.2 he))
  -- `for_each`
  case h_4 => exact .bind (h.overAll _ _ ha.2.1 ha.1) fun _ _ => .pure (hresult Value.keeps_unit)
  -- `filter`
  case h_5 =>
    refine .bind (h.overAll _ _ ha.2.1 ha.1) fun each _ => .pure (hresult (Value.keeps_array.2 ?_))
    intro v hv
    obtain ⟨p, hp, rfl⟩ := List.mem_map.1 hv
    exact hfirst ha.1 (List.mem_of_mem_filter hp)
  -- `some`
  case h_6 => exact .bind (h.overAll _ _ ha.2.1 ha.1) fun _ _ => .pure (hresult Value.keeps_bool)
  -- `all`
  case h_7 => exact .bind (h.overAll _ _ ha.2.1 ha.1) fun _ _ => .pure (hresult Value.keeps_bool)
  -- `find`
  case h_8 =>
    refine .bind (h.overAll _ _ ha.2.1 ha.1) fun each _ => .pure (hresult (Value.keeps_getD.2 ?_))
    intro v hv
    obtain ⟨p, hp, rfl⟩ := Option.map_eq_some_iff.1 hv
    exact hfirst ha.1 (List.mem_of_find?_eq_some hp)
  -- `reduce`
  case h_9 items name captured params body initial _ =>
    refine .guard (by trivial) fun _ => ?_
    refine .bind (.iterate (fun a => KeepsItems ok a.1 ∧ a.2.2.Keeps ok) ?_ _ _ ⟨ha.1, ?_⟩)
      fun v hv => .pure (hresult hv)
    · rintro ⟨rest, index, sum⟩ ⟨hrest, hsum⟩
      cases rest with
      | nil => exact .pure hsum
      | cons v rest =>
        obtain ⟨hv, hrest⟩ := keepsItems_cons.1 hrest
        refine .bind (h.closure name captured params _ ha.2.1 (fun _ => keeps_none) ?_) fun x hx =>
          .pure ⟨hrest, hx.1⟩
        split_ifs <;> simp [hsum, hv]
    · cases initial with
      | nil => exact Value.keeps_unit
      | cons v initial => exact (keepsItems_cons.1 ha.2.2).1
  -- a function that is not passed a closure
  case h_10 =>
    rename_i vs _ _ _ _ _ _ _ _ _ _ _
    have hbuiltin : Native.Keeps ok (Script.builtin n.name vs) := builtin_keeps n.name ha
    split
    · exact .fail (by trivial) _
    · rename_i result hr
      rw [hr] at hbuiltin
      refine .bind (.at_ (PairKeeps ok) _ ?_ ?_) fun x hx => ?_
      · rintro ⟨v, changed⟩ rfl
        exact hbuiltin
      · rintro c rfl
        exact hbuiltin
      · obtain ⟨v, changed⟩ := x
        have hgive : Alike ok (return (← Eval.sized w v n.place, changed))
            (return (← Eval.sized w v n.place, changed)) (PairKeeps ok) :=
          .bind (.sized w hx.1 _) fun v hv => .pure ⟨hv, hx.2⟩
        cases changed with
        | none => exact hgive
        | some x => exact .bind (.checkSize w _ _) fun _ _ => hgive

/-- A call without a path never is one of a module. -/
theorem call_succ (hf : ∀ f ∈ w.functions, Keeps ok f.body.references) (n : Ident)
    {args : List Expr} (ha : Keeps ok (allReferences args)) :
    Alike ok (evalCall w (fuel + 1) n args) (evalCall (w.withModules modules) (fuel + 1) n args)
      (Value.Keeps ok) := by
  unfold evalCall
  refine .bind (h.callArgs ha) fun vs hvs => ?_
  have hfunctions : ∀ {p : FnDef → Bool} {f : FnDef}, w.functions.find? p = some f →
      Keeps ok f.body.references := fun h => hf _ (List.mem_of_find?_eq_some h)
  simp only [World.functions_withModules]
  split
  · rename_i f hfind
    exact .bind (h.script _ (hfunctions hfind) (fun _ => keeps_none) hvs) fun x hx => .pure hx.1
  · split
    case h_1 name captured params body rest _ =>
      obtain ⟨hf, hrest⟩ := keepsItems_cons.1 hvs
      exact .bind (h.closure name captured params _ hf (fun _ => keeps_none) hrest) fun x hx =>
        .pure hx.1
    case h_2 => exact .bind (.find? _) fun _ _ => .pure Value.keeps_bool
    case h_3 => exact .pure Value.keeps_bool
    case h_4 =>
      split
      · refine .bind (.find? _) fun b _ => ?_
        split <;> exact .pure Value.keeps_bool
      · exact .pure Value.keeps_bool
    case h_5 =>
      split
      · rename_i f hfind
        exact .pure (hfunctions hfind)
      · exact .pure keeps_nil
    case h_6 =>
      refine .bind (h.builtin n hvs) fun x hx => ?_
      split
      · rename_i y _ _ hy _
        refine .bind (.find? _) fun b _ => ?_
        split
        · exact .bind (.store _ (hx.2 _ hy)) fun _ _ => .pure hx.1
        · exact .pure hx.1
      · exact .pure hx.1

/-! ### Blocks, cases and assignments -/

/-- Statements in a block of their own. -/
theorem body_succ {s : Stmt} (hs : Keeps ok s.references) :
    Alike ok (evalBody w (fuel + 1) s) (evalBody (w.withModules modules) (fuel + 1) s)
      (Value.Keeps ok) := by
  unfold evalBody
  split
  · exact .bind .get fun _ _ => .inBlock (h.stmts _ Value.keeps_unit hs)
  · exact .pure Value.keeps_unit
  · exact .bind .get fun _ _ => .inBlock (h.stmt _ hs)

theorem stmts_succ (outer : Nat) {last : Value} {body : List Stmt} (hl : last.Keeps ok)
    (hb : Keeps ok (stmtReferences body)) :
    Alike ok (evalStmts w (fuel + 1) outer last body)
      (evalStmts (w.withModules modules) (fuel + 1) outer last body) (Value.Keeps ok) := by
  cases body with
  | nil =>
    rw [evalStmts, evalStmts]
    exact .pure hl
  | cons s body =>
    simp only [stmtReferences, keeps_append] at hb
    rw [evalStmts, evalStmts]
    exact .bind (h.stmt outer hb.1) fun v hv => h.stmts outer hv hb.2

theorem optional_succ {value : Option Expr} (hv : Keeps ok (optionReferences value)) :
    Alike ok (evalOptional w (fuel + 1) value)
      (evalOptional (w.withModules modules) (fuel + 1) value) (Value.Keeps ok) := by
  cases value with
  | none =>
    rw [evalOptional, evalOptional]
    exact .pure Value.keeps_unit
  | some e =>
    rw [evalOptional, evalOptional]
    exact h.expr hv

/-- The first case that holds is the same in both. -/
theorem cases_succ {cases : List Case} {otherwise : Option Stmt}
    (hc : Keeps ok (caseReferences cases)) (ho : Keeps ok (elseReferences otherwise)) :
    Alike ok (evalCases w (fuel + 1) cases otherwise)
      (evalCases (w.withModules modules) (fuel + 1) cases otherwise) (Value.Keeps ok) := by
  unfold evalCases
  split
  · cases otherwise with
    | none => exact .pure Value.keeps_unit
    | some s => exact h.body ho
  · rename_i guard body rest
    simp only [caseReferences, keeps_append] at hc
    have hrest : ∀ holds : Bool, Alike ok
        (if holds then evalBody w fuel body else evalCases w fuel rest otherwise)
        (if holds then evalBody (w.withModules modules) fuel body
          else evalCases (w.withModules modules) fuel rest otherwise) (Value.Keeps ok) :=
      fun _ => .ite (fun _ => h.body hc.2.1) fun _ => h.cases hc.2.2 ho
    cases guard with
    | none => exact hrest true
    | some e => exact .bind (h.condition hc.1) fun _ _ => hrest _

/-- An assignment sets a variable, `this` or a part of a value. -/
theorem assign_succ (op : String) (place : Place) {target : Expr} {v : Value}
    (ht : Keeps ok target.references) (hv : v.Keeps ok) :
    Alike ok (evalAssign w (fuel + 1) op target v place)
      (evalAssign (w.withModules modules) (fuel + 1) op target v place) fun _ => True := by
  unfold evalAssign
  split
  · refine .bind (.find? _) fun b? hb? => ?_
    cases b? with
    | none => exact .fail (by trivial) _
    | some b =>
      refine .guard (by trivial) fun _ => .bind (.track w _) fun _ _ => ?_
      refine .ite (fun _ => .store _ hv) fun _ => .bind (.load (hb? b rfl)) fun old ho => ?_
      refine .bind (.value _ (assignOp_keeps op ho hv)) fun x hx => ?_
      exact .bind (.sized w hx _) fun new hnew => .store _ hnew
  · refine .bind .get fun s hs => ?_
    split
    · exact .fail (by trivial) _
    · rename_i old hold
      have hset : ∀ new : Value, new.Keeps ok → Alike ok
          (modify fun s => { s with this := some new } : Eval Unit)
          (modify fun s => { s with this := some new }) fun _ => True := fun new hnew =>
        .modify fun s hs => ⟨hs.scope, hs.cells, fun x hx => Option.some.inj hx ▸ hnew, hs.aliases⟩
      refine .ite (fun _ => .bind (.pure hv) hset) fun _ => ?_
      exact .bind (.value _ (assignOp_keeps op (hs.this old hold) hv)) hset
  · have hlinks := Expr.keeps_chain ht
    refine .bind (h.links hlinks.2) fun as has => ?_
    exact .bind (h.chain hlinks.1 has fun a ha => Option.some.inj ha ▸ hv) fun _ _ => .pure trivial

/-! ### Modules -/

omit h in
/-- The module of an alias is one that was loaded under it. -/
theorem findModule (root : Ident) (path : List Ident) {name : String}
    (hm : ok (.member ((root :: path).map (·.name)) name)) :
    Alike ok (evalBare.findModule (root :: path)) (evalBare.findModule (root :: path)) fun m =>
      ok (.load (some m) (some root.name)) := by
  unfold evalBare.findModule
  refine .bind .get fun s hs => ?_
  split
  · rename_i m hlookup
    obtain ⟨l₁, l₂, haliases, -⟩ := List.lookup_eq_some_iff.1 hlookup
    exact .pure (hs.aliases (root.name, m) (by simp [haliases]))
  · exact .fail (c := .moduleNotFound _) ⟨_, _, hm, rfl⟩ _

omit h in
/-- A call of a module looks up the alias first, then the function, and then counts. -/
theorem callModule_eq (w : World) (root n : Ident) (vs : List Value) :
    evalBare.callModule w [root] n vs = (do
      let m ← evalBare.findModule [root]
      match callOf w.modules m n.name vs with
      | none => Eval.fail (.functionNotFound
          (Value.signature (pathText [root] ++ "::" ++ n.name) vs)) n.place
      | some result =>
        Eval.track w n.place
        match result with
        | .ok v => Eval.sized w v n.place
        | .error text => throw (.failed ⟨.foreign text, none, []⟩)) := by
  unfold evalBare.callModule callOf
  congr 1
  funext m
  cases w.modules.lookup m with
  | none => rfl
  | some functions =>
    cases h : functions n.name vs with
    | none => simp [h]
    | some result => cases result <;> simp [h]

omit h in
/-- A function behind an alias is the same in both worlds, as far as the script refers to it. -/
theorem callModule (hs : Suits ok w.modules modules) (root : Ident) (path : List Ident) (n : Ident)
    {vs : List Value} (hm : ok (.member ((root :: path).map (·.name)) n.name))
    (hv : KeepsItems ok vs) :
    Alike ok (evalBare.callModule w (root :: path) n vs)
      (evalBare.callModule (w.withModules modules) (root :: path) n vs) (Value.Keeps ok) := by
  cases path with
  | cons next path =>
    -- no module is behind another, so there is nothing to call
    unfold evalBare.callModule
    exact .bind (findModule root (next :: path) hm) fun m _ => .fail (by trivial) _
  | nil =>
    rw [callModule_eq, callModule_eq]
    refine .bind (findModule root [] hm) fun m hload => ?_
    have hcall : callOf (w.withModules modules).modules m n.name vs =
        callOf w.modules m n.name vs := hs.member root.name m n.name hm hload vs
    rw [hcall]
    cases hr : callOf w.modules m n.name vs with
    | none => exact .fail (by trivial) _
    | some result =>
      refine .bind (.track w _) fun _ _ => ?_
      cases result with
      | ok v => exact .sized w (hs.result m n.name vs v hr hv) _
      | error text => exact .throw (e := .failed ⟨.foreign text, none, []⟩) trivial

/-- Only calls of modules look at more than the parts of an expression. -/
theorem bare_succ (hs : Suits ok w.modules modules)
    (hf : ∀ f ∈ w.functions, Keeps ok f.body.references) {e : Expr} (he : Keeps ok e.references) :
    Alike ok (evalBare w (fuel + 1) e) (evalBare (w.withModules modules) (fuel + 1) e)
      (Value.Keeps ok) := by
  have hchain : ∀ {e : Expr}, Keeps ok e.references → Alike ok
      (do
        let accesses ← evalLinks w fuel (e.links []).2
        evalChain w fuel (e.links []).1 accesses none)
      (do
        let accesses ← evalLinks (w.withModules modules) fuel (e.links []).2
        evalChain (w.withModules modules) fuel (e.links []).1 accesses none) (Value.Keeps ok) := by
    intro e he
    have hlinks := Expr.keeps_chain he
    exact .bind (h.links hlinks.2) fun as has => h.chain hlinks.1 has Assignment.keeps_none
  unfold evalBare
  cases e with
  | literal => exact .pure Value.keeps_ofLiteral
  | text parts => exact h.text _ he
  | array items =>
    exact .bind (h.items _ _ keepsItems_nil he) fun vs hvs => .pure (Value.keeps_array.2 hvs)
  | map fields =>
    exact .bind (h.fields _ _ keepsEntries_nil he) fun vs hvs => .pure (Value.keeps_map.2 hvs)
  | var path n =>
    cases path with
    | nil =>
      refine .bind (.find? _) fun b? hb? => ?_
      split
      · exact .load (hb? _ rfl)
      · simp only [World.functions_withModules]
        split
        · rename_i f hfind
          exact .pure (hf f (List.mem_of_find?_eq_some hfind))
        · exact .fail (by trivial) _
    | cons root path =>
      have hm : ok (.member ((root :: path).map (·.name)) n.name) :=
        he _ (by simp [Expr.references, memberReferences])
      exact .bind (findModule root path hm) fun _ _ => .fail (by trivial) _
  | this p =>
    refine .bind .get fun s hs => ?_
    split
    · exact .pure (hs.this _ ‹_›)
    · exact .fail (by trivial) _
  | call path n args =>
    obtain ⟨hm, ha⟩ := keeps_append.1 he
    cases path with
    | nil => exact h.call n ha
    | cons root path =>
      refine .bind (h.callArgs ha) fun vs hvs => callModule hs root path n ?_ hvs
      exact hm _ (by simp [memberReferences])
  | unary op arg p => exact .bind (h.arg he) fun v _ => .value _ (unaryOp_keeps _ v)
  | binary op lhs rhs p =>
    obtain ⟨hl, hr⟩ := keeps_append.1 he
    refine .bind (h.arg hl) fun a ha => .bind (h.arg hr) fun b hb => ?_
    exact .bind (.value _ (binaryOp_keeps _ ha hb)) fun v hv => .sized w hv _
  | both lhs rhs =>
    obtain ⟨hl, hr⟩ := keeps_append.1 he
    refine .bind (h.condition hl) fun _ _ => .ite (fun _ => ?_) fun _ => .pure Value.keeps_bool
    exact .bind (h.condition hr) fun _ _ => .pure Value.keeps_bool
  | either lhs rhs =>
    obtain ⟨hl, hr⟩ := keeps_append.1 he
    refine .bind (h.condition hl) fun _ _ => .ite (fun _ => .pure Value.keeps_bool) fun _ => ?_
    exact .bind (h.condition hr) fun _ _ => .pure Value.keeps_bool
  | orElse lhs rhs =>
    obtain ⟨hl, hr⟩ := keeps_append.1 he
    refine .bind (h.expr hl) fun v hv => ?_
    split
    · exact h.expr hr
    · exact .pure hv
  | index => exact hchain he
  | prop => exact hchain he
  | method => exact hchain he
  | closure captured params body p =>
    refine .bind (.mapM (fun n => .bind (.share? _) fun c _ => ?_) _) fun _ _ => .pure he
    split
    · exact .pure trivial
    · exact .fail (by trivial) _
  | block s => exact h.body he

omit h in
/-- A literal is the same everywhere. -/
theorem literal (fuel : Nat) (l : Literal) (p : Place) :
    Alike ok (evalExpr w fuel (.literal l p)) (evalExpr (w.withModules modules) fuel (.literal l p))
      (· = .ofLiteral l) := by
  match fuel with
  | 0 => exact .endless
  | 1 =>
    rw [evalExpr, evalExpr]
    exact .bind (.track w _) fun _ _ => .endless
  | fuel + 2 =>
    rw [evalExpr, evalExpr]
    refine .bind (.track w _) fun _ _ => ?_
    rw [evalBare, evalBare]
    exact .pure rfl

omit h in
/-- A module that is loaded is one that both worlds have, under the name written out. -/
theorem load_succ (hs : Suits ok w.modules modules) (outer : Nat) {source : Expr}
    {name : Option Ident} {p : Place} (hl : ok (.load source.text? (name.map (·.name)))) :
    Alike ok (evalStmt w (fuel + 1) outer (.load source name p))
      (evalStmt (w.withModules modules) (fuel + 1) outer (.load source name p))
      (Value.Keeps ok) := by
  unfold Expr.text? at hl
  split at hl
  · rename_i m q
    obtain ⟨hthis, hother⟩ := hs.load m _ hl
    unfold evalStmt
    refine .bind (.track w _) fun _ _ => .bind (literal fuel (.str m) q) ?_
    rintro _ rfl
    have hfound : (w.modules.lookup m).isNone = false := by simpa using hthis
    have hfound' : ((w.withModules modules).modules.lookup m).isNone = false := by
      rw [World.withModules]
      simpa using hother
    simp only [Value.ofLiteral, hfound, hfound', Bool.false_eq_true, if_false]
    cases name with
    | none => exact .pure Value.keeps_unit
    | some n =>
      refine .bind (.modify fun s hs => ?_) fun _ _ => .pure Value.keeps_unit
      exact ⟨hs.scope, hs.cells, hs.this, List.forall_mem_cons.2 ⟨hl, hs.aliases⟩⟩
  · exact (hs.named _ hl).elim

/-- One round of a loop that goes on from `next` if its body does not leave it. -/
theorem round {σ : Type} (inv : σ → Prop) (next : σ) {body : Stmt}
    (hb : Keeps ok body.references) (hn : inv next) :
    Alike ok
      (do
        match ← Eval.oneRound (evalBody w fuel body) with
        | some v => return .inr v
        | none => return .inl next)
      (do
        match ← Eval.oneRound (evalBody (w.withModules modules) fuel body) with
        | some v => return .inr v
        | none => return .inl next) (Sum.elim inv (Value.Keeps ok)) := by
  refine .bind (.oneRound (h.body hb)) fun r hr => ?_
  cases r with
  | some v => exact .pure (hr v rfl)
  | none => exact .pure hn

theorem loop_succ (outer : Nat) {guard : Option Expr} {body : Stmt} {p : Place}
    (hg : Keeps ok (optionReferences guard)) (hb : Keeps ok body.references) :
    Alike ok (evalStmt w (fuel + 1) outer (.loop guard body p))
      (evalStmt (w.withModules modules) (fuel + 1) outer (.loop guard body p))
      (Value.Keeps ok) := by
  unfold evalStmt
  refine .bind (.track w _) fun _ _ => .iterate (fun _ => True) (fun _ _ => ?_) _ _ trivial
  have hround : ∀ always goOn : Bool, Alike ok
      (do
        if goOn then
          if body.isEmpty then
            if always then Eval.track w body.place
            return .inl ()
          match ← Eval.oneRound (evalBody w fuel body) with
          | some v => return .inr v
          | none => return .inl ()
        else return .inr .unit)
      (do
        if goOn then
          if body.isEmpty then
            if always then Eval.track w body.place
            return .inl ()
          match ← Eval.oneRound (evalBody (w.withModules modules) fuel body) with
          | some v => return .inr v
          | none => return .inl ()
        else return .inr .unit) (Sum.elim (fun _ : Unit => True) (Value.Keeps ok)) := by
    have hnext : Sum.elim (fun _ : Unit => True) (Value.Keeps ok) (.inl ()) := trivial
    intro always goOn
    refine .ite (fun _ => .ite (fun _ => .ite (fun _ => ?_) fun _ => .pure hnext) fun _ => ?_)
      fun _ => .pure Value.keeps_unit
    · exact .bind (.track w _) fun _ _ => .pure hnext
    · exact h.round (fun _ => True) () hb trivial
  cases guard with
  | none => exact hround true true
  | some e =>
    exact .ite (fun _ => hround _ true) fun _ => .bind (h.condition hg) fun goOn _ => hround _ goOn

theorem until_succ (outer : Nat) {guard : Expr} {body : Stmt} {wanted : Bool} {p : Place}
    (hg : Keeps ok guard.references) (hb : Keeps ok body.references) :
    Alike ok (evalStmt w (fuel + 1) outer (.until body guard wanted p))
      (evalStmt (w.withModules modules) (fuel + 1) outer (.until body guard wanted p))
      (Value.Keeps ok) := by
  unfold evalStmt
  refine .bind (.track w _) fun _ _ => .iterate (fun _ => True) (fun _ _ => ?_) _ _ trivial
  refine .bind (.oneRound (h.body hb)) fun r hr => ?_
  cases r with
  | some v => exact .pure (hr v rfl)
  | none =>
    refine .bind (h.condition hg) fun _ _ => ?_
    exact .ite (fun _ => .pure trivial) fun _ => .pure Value.keeps_unit

/-- The items of a `for` are those of one value in both. -/
theorem each_succ (outer : Nat) {name : Ident} {counter : Option Ident} {source : Expr}
    {body : Stmt} {p : Place} (hs : Keeps ok source.references) (hb : Keeps ok body.references) :
    Alike ok (evalStmt w (fuel + 1) outer (.each name counter source body p))
      (evalStmt (w.withModules modules) (fuel + 1) outer (.each name counter source body p))
      (Value.Keeps ok) := by
  unfold evalStmt
  refine .bind (.track w _) fun _ _ => .bind (h.expr hs) fun v hv => ?_
  have hitems := Items.keeps_ofValue? hv
  cases hi : Items.ofValue? v with
  | none => exact .fail (by trivial) _
  | some items =>
    have hround : Alike ok (eachRounds w fuel name counter body items)
        (eachRounds (w.withModules modules) fuel name counter body items) (Value.Keeps ok) := by
      refine .bind (.push _ Value.keeps_unit) fun _ _ =>
        .iterate (fun a => a.1.Keeps ok) ?_ _ _ (hitems items hi)
      rintro ⟨items, count⟩ hkeeps
      have hnext := Items.keeps_next? hkeeps
      simp only
      cases hn : items.next? with
      | none => exact .pure Value.keeps_unit
      | some r =>
        obtain ⟨v, items⟩ := r
        obtain ⟨hv, hrest⟩ := hnext _ hn
        refine .ite (fun _ => .bind (.track w _) fun _ _ => .pure hrest) fun _ => ?_
        have hstore := Alike.bind (Alike.store name.name hv) fun _ _ =>
          h.round (fun a : Items × Int => a.1.Keeps ok) (items, count + 1) hb hrest
        cases counter with
        | none => exact hstore
        | some c => exact .bind (.store _ Value.keeps_int) fun _ _ => hstore
    refine .inBlock ?_
    cases counter with
    | none => exact hround
    | some c => exact .bind (.push _ Value.keeps_int) fun _ _ => hround

/-- A failure that is caught is the same in both. -/
theorem attempt_succ (outer : Nat) {body handler : Stmt} {name : Option Ident} {p : Place}
    (hb : Keeps ok body.references) (hh : Keeps ok handler.references) :
    Alike ok (evalStmt w (fuel + 1) outer (.attempt body name handler p))
      (evalStmt (w.withModules modules) (fuel + 1) outer (.attempt body name handler p))
      (Value.Keeps ok) := by
  unfold evalStmt
  refine .bind (.track w _) fun _ _ => .bind (.attempt (h.body hb)) fun r hr => ?_
  cases r with
  | ok v => exact .pure hr
  | error f =>
    have hhandler : Alike ok (handle w fuel name handler f)
        (handle (w.withModules modules) fuel name handler f) (Value.Keeps ok) := by
      refine .inBlock ?_
      cases name with
      | none => exact h.body hh
      | some n => exact .bind (.push _ (RunFault.keeps_caught hr)) fun _ _ => h.body hh
    have hagain : ∀ q, (f.again q).cause = f.cause := by
      intro q
      unfold RunFault.again
      split <;> rfl
    refine .stopIf (e := .failed f) hr fun _ => .bind (.attempt hhandler) fun r hr' => ?_
    cases r with
    | ok v => exact .pure Value.keeps_unit
    | error g =>
      simp only
      split
      · exact .throw (e := .failed (f.again g.place)) (by simpa [Stop.Keeps, hagain] using hr)
      · exact .throw (e := .failed g) hr'

/-- Of the statements only an import looks at the modules. -/
theorem stmt_succ (hs : Suits ok w.modules modules) (outer : Nat) {s : Stmt}
    (hk : Keeps ok s.references) :
    Alike ok (evalStmt w (fuel + 1) outer s) (evalStmt (w.withModules modules) (fuel + 1) outer s)
      (Value.Keeps ok) := by
  cases s with
  | load source name p => exact load_succ hs outer (keeps_cons.1 hk).1
  | loop guard body p =>
    exact h.loop_succ outer (keeps_append.1 hk).1 (keeps_append.1 hk).2
  | «until» body guard wanted p =>
    exact h.until_succ outer (keeps_append.1 hk).2 (keeps_append.1 hk).1
  | each name counter source body p =>
    exact h.each_succ outer (keeps_append.1 hk).1 (keeps_append.1 hk).2
  | attempt body name handler p =>
    exact h.attempt_succ outer (keeps_append.1 hk).1 (keeps_append.1 hk).2
  | skip p | define n params body p => exact .bind (.track w _) fun _ _ => .pure Value.keeps_unit
  | expr e =>
    unfold evalStmt
    refine .bind (.track w _) fun _ _ => ?_
    cases e with
    | call => exact h.bare hk
    | unary => exact h.bare hk
    | binary => exact h.bare hk
    | _ => exact h.expr hk
  | bind constant n value p =>
    have hbind : ∀ v : Value, v.Keeps ok → Alike ok
        (do
          Eval.bind outer n.name constant v
          return .unit)
        (do
          Eval.bind outer n.name constant v
          return .unit) (Value.Keeps ok) :=
      fun v hv => .bind (.bindVariable _ _ _ hv) fun _ _ => .pure Value.keeps_unit
    unfold evalStmt
    refine .bind (.track w _) fun _ _ => ?_
    cases value with
    | none => exact hbind .unit Value.keeps_unit
    | some e => exact .bind (h.expr hk) hbind
  | assign op target value p =>
    obtain ⟨ht, hv⟩ := keeps_append.1 hk
    unfold evalStmt
    refine .bind (.track w _) fun _ _ => .bind (h.expr hv) fun v hv => ?_
    exact .bind (h.assign op p ht hv) fun _ _ => .pure Value.keeps_unit
  | block body p =>
    unfold evalStmt
    exact .bind (.track w _) fun _ _ => h.body hk
  | cond guard yes no p =>
    obtain ⟨hg, hyn⟩ := keeps_append.1 hk
    obtain ⟨hy, hn⟩ := keeps_append.1 hyn
    unfold evalStmt
    refine .bind (.track w _) fun _ _ => .bind (h.condition hg) fun _ _ => ?_
    exact .ite (fun _ => h.body hy) fun _ => h.body hn
  | choice subject cases otherwise p =>
    obtain ⟨hsub, hrest⟩ := keeps_append.1 hk
    obtain ⟨hc, ho⟩ := keeps_append.1 hrest
    unfold evalStmt
    refine .bind (.track w _) fun _ _ => .bind (h.expr hsub) fun v _ => ?_
    exact h.cases (keeps_casesFor v hc) ho
  | leave value p =>
    unfold evalStmt
    refine .bind (.track w _) fun _ _ => .bind (h.optional hk) fun v hv => ?_
    exact .throw (e := .left v) hv
  | next p =>
    unfold evalStmt
    exact .bind (.track w _) fun _ _ => .throw (e := .continued) trivial
  | give value p =>
    unfold evalStmt
    refine .bind (.track w _) fun _ _ => .bind (h.optional hk) fun v hv => ?_
    exact .throw (e := .gave v) hv
  | raise value p =>
    unfold evalStmt
    refine .bind (.track w _) fun _ _ => .bind (h.optional hk) fun v hv => ?_
    exact .fail (c := .thrown v) hv _

omit h in
/-- Evaluation goes alike to any depth. -/
theorem all (hs : Suits ok w.modules modules)
    (hf : ∀ f ∈ w.functions, Keeps ok f.body.references) (fuel : Nat) :
    AlikeTo ok w modules fuel := by
  induction fuel with
  | zero => exact zero
  | succ fuel h =>
    exact
      { expr := h.expr_succ
        bare := h.bare_succ hs hf
        condition := h.condition_succ
        arg := h.arg_succ
        callArgs := h.callArgs_succ
        args := h.args_succ
        items := h.items_succ
        fields := h.fields_succ
        text := h.text_succ
        links := h.links_succ
        chain := h.chain_succ
        walk := h.walk_succ
        method := h.method_succ
        byName := h.byName_succ hf
        builtin := h.builtin_succ
        overAll := h.overAll_succ
        script := h.script_succ
        closure := h.closure_succ
        entered := h.entered_succ
        call := h.call_succ hf
        body := h.body_succ
        stmts := h.stmts_succ
        stmt := h.stmt_succ hs
        optional := h.optional_succ
        cases := h.cases_succ
        assign := h.assign_succ }

end AlikeTo

/-- A script runs alike among other modules that are the same for what it refers to. Where it
fails for want of a module, it is for that of an alias it uses, never for one it loads. -/
theorem run_withModules {p : Program} (hs : Suits ok w.modules modules) (hp : Keeps ok p.references)
    (size : Nat) : run (w.withModules modules) p size = run w p size ∧
      ∀ f s, run w p size = (.failed f, s) → f.cause.Keeps ok := by
  have hall : AlikeTo ok { w with functions := p.simplifiedFunctions } modules
      ((16 * size + 64) * (w.limits.maxCallLevels + 2)) :=
    AlikeTo.all (w := { w with functions := p.simplifiedFunctions }) hs
      (p.keeps_simplifiedFunctions hs.named hp) _
  obtain ⟨heq, hres⟩ := hall.stmts 0 Value.keeps_unit (p.keeps_simplified hs.named hp) _
    Machine.Keeps.initial
  simp only [run, World.withModules] at heq ⊢
  rw [← heq]
  refine ⟨rfl, fun f s h => ?_⟩
  split at h
  all_goals cases h
  rename_i hrun
  rw [hrun] at hres
  exact hres.2

end LiveScene.Script
