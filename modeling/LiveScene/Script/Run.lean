import LiveScene.Script.Access
import LiveScene.Script.Machine
import LiveScene.Script.Simplify

/-!
# Running scripts

`run` runs a program and answers with its value, or the failure or the
other way in which it ended, and the machine afterwards.

A chain of accesses such as `a.b[1].f(x)` is taken apart into its base and
its links. The arguments of all links are evaluated before the base. A
change at the end of the chain is carried back link by link, and stored if
the base is a variable.

`fuel` bounds how deep the evaluation may go: a multiple of the length of
the script for each open call is enough. Loops have their own bound, which
the limit of operations or the end of patience comes before.
-/

namespace LiveScene.Script

/-- A link of a chain of accesses, as it is written. -/
inductive Link where
  | index (idx : Expr) (lenient : Bool)
  | prop (name : Ident) (lenient : Bool)
  | method (name : Ident) (args : List Expr) (lenient : Bool)

/-- A link with its arguments evaluated. -/
inductive Access where
  | index (idx : Value) (place : Place) (lenient : Bool)
  | prop (name : Ident) (lenient : Bool)
  | method (name : Ident) (args : List Value) (lenient : Bool)

/-- Whether a link leaves `()` as it is. -/
def Access.lenient : Access → Bool
  | index _ _ q | prop _ q | method _ _ q => q

/-- The base of a chain and its links in front of those in `links`. -/
def Expr.links (links : List Link) : Expr → Expr × List Link
  | .index b i q => b.links (.index i q :: links)
  | .prop b n q => b.links (.prop n q :: links)
  | .method b n args q => b.links (.method n args q :: links)
  | e => (e, links)

/-- A value to be assigned at the end of a chain. -/
structure Assignment where
  op : String
  value : Value
  place : Place

/-- What a loop goes through. -/
inductive Items where
  | list (items : List Value)
  /-- Whole numbers from `next` on as long as they are below `stop`. -/
  | count (next stop : Int)

namespace Items

/-- What there is to go through in a value. -/
def ofValue? : Value → Option Items
  | .array items => some (.list items)
  | .str s => some (.list (s.toList.map .char))
  | .range lo hi closed => some (.count lo (if closed then hi + 1 else hi))
  | _ => none

/-- The next item and the others. -/
def next? : Items → Option (Value × Items)
  | list [] => none
  | list (v :: rest) => some (v, list rest)
  | count n stop => if n < stop then some (.int n, count (n + 1) stop) else none

end Items

/-- Whether a value is the one a case is written for. -/
def matchesLiteral : Literal → Value → Bool
  | .unit, .unit => true
  | .bool a, .bool b => a = b
  | .int a, .int b => a = b
  | .float a, .float b => a == b
  | .char a, .char b => a = b
  | .str a, .str b => a = b
  | _, _ => false

/-- Whether a value lies in the range of a case. -/
def matchesRange (lo hi : Int) (closed : Bool) : Value → Bool
  | .int n => lo ≤ n && (n < hi || (closed && n = hi))
  | .float x =>
    Float.ofInt lo ≤ x && (x < Float.ofInt hi || (closed && x == Float.ofInt hi))
  | _ => false

/-- The cases that may apply to a value: those that name it, else those with a
range around it. -/
def casesFor (v : Value) (cases : List Case) : List Case :=
  let named := cases.filter fun (.mk values _ _ _) => values.any (matchesLiteral · v)
  if named.isEmpty then
    cases.filter fun (.mk _ ranges _ _) =>
      ranges.any fun (lo, hi, closed) => matchesRange lo hi closed v
  else named

/-- The text of a path of aliases. -/
def pathText (path : List Ident) : String := "::".intercalate (path.map (·.name))

/-- A place as it is shown behind a message. -/
def placeText (p : Place) : String :=
  " (line " ++ toString p.line ++ ", position " ++ toString p.col ++ ")"

/-- The name under which scripts are run. -/
def sourceName : String := "eval"

/-- The message of a caught failure: that of the cause, then the calls from
the innermost on, each with its place but the outermost. -/
def RunFault.report (f : RunFault) : String :=
  match f.calls with
  | [] => f.cause.message
  | (outermost, _) :: inner =>
    let own := f.cause.message ++ (f.place.map placeText).getD ""
    let call (name : String) := " in call to function '" ++ name ++ "' @ '" ++ sourceName ++ "'"
    inner.reverse.foldl (fun text (name, p) => text ++ call name ++ placeText p) own ++
      call outermost

/-- The name of the kind of a cause. -/
def Cause.kind : Cause → String
  | .variableNotFound _ => "ErrorVariableNotFound"
  | .functionNotFound _ => "ErrorFunctionNotFound"
  | .moduleNotFound _ => "ErrorModuleNotFound"
  | .arrayIndex .. => "ErrorArrayBounds"
  | .stringIndex .. => "ErrorStringBounds"
  | .bitIndex _ => "ErrorBitFieldBounds"
  | .unknownProperty .. => "ErrorDotExpr"
  | .noIndexer .. => "ErrorIndexingType"
  | .typeMismatch .. => "ErrorMismatchDataType"
  | .notIterable => "ErrorFor"
  | .noReceiver => "ErrorUnboundThis"
  | .constantAssigned _ => "ErrorAssignmentToConstant"
  | .constantReceiver _ => "ErrorNonPureMethodCallOnConstant"
  | .arithmetic _ => "ErrorArithmetic"
  | _ => "ErrorRuntime"

/-- What a caught failure says about its cause besides the message. -/
def Cause.details : Cause → List (String × Value)
  | .variableNotFound n | .constantAssigned n => [("variable", .str n)]
  | .functionNotFound s => [("function", .str s)]
  | .moduleNotFound n => [("module", .str n)]
  | .arrayIndex i n | .stringIndex i n => [("index", .int i), ("length", .int n)]
  | .typeMismatch found wanted => [("actual", .str found), ("requested", .str wanted)]
  | _ => []

/-- The value a handler gets: what was thrown, or a map about the failure. -/
def RunFault.caught (f : RunFault) : Value :=
  match f.cause with
  | .thrown v => v
  | .foreign m => .str m
  | cause =>
    let place := match f.calls with
      | (_, p) :: _ => some p
      | [] => f.place
    let about := match f.calls with
      | (name, _) :: _ =>
        [("error", Value.str "ErrorInFunctionCall"), ("function", .str name),
          ("source", .str sourceName)]
      | [] => ("error", .str cause.kind) :: cause.details
    let where_ := match place with
      | some p => [("line", Value.int p.line), ("position", .int p.col)]
      | none => []
    .map (joinFields [] (("message", .str f.report) :: ("source", .str sourceName) ::
      (where_ ++ about)))

/-- The failure as one raised anew at another place. -/
def RunFault.again (f : RunFault) (place : Option Place) : RunFault :=
  match f.calls, place with
  | (name, _) :: inner, some p => { f with calls := (name, p) :: inner }
  | _, p => { f with place := p }

mutual

/-- The value of an expression. -/
def evalExpr (w : World) (fuel : Nat) (e : Expr) : Eval Value := do
  match fuel with
  | 0 => throw .endless
  | fuel + 1 =>
    Eval.track w e.place
    evalBare w fuel e

/-- The value of an expression that has been counted. -/
def evalBare (w : World) (fuel : Nat) (e : Expr) : Eval Value := do
  match fuel with
  | 0 => throw .endless
  | fuel + 1 =>
    match e with
    | .literal v _ => return .ofLiteral v
    | .text parts _ => evalText w fuel "" parts
    | .array items _ => return .array (← evalItems w fuel e.isConstant .zero [] items)
    | .map fields _ => return .map (← evalFields w fuel e.isConstant .zero [] fields)
    | .var [] n =>
      match ← Eval.find? n.name with
      | some b => Eval.load b.slot
      | none =>
        match w.functions.find? (·.name = n.name) with
        | some f => return .closure f.name [] f.params f.body
        | none => Eval.fail (.variableNotFound n.name) n.place
    | .var (root :: path) n =>
      let _ ← findModule (root :: path)
      Eval.fail (.variableNotFound (pathText (root :: path) ++ "::" ++ n.name)) root.place
    | .this p =>
      match (← get).this with
      | some v => return v
      | none => Eval.fail .noReceiver p
    | .call [] n args => evalCall w fuel n args
    | .call path n args =>
      let vs ← evalCallArgs w fuel args
      callModule w path n vs
    | .unary op arg p =>
      let v ← evalArg w fuel arg
      Eval.at_ p (unaryOp op v)
    | .binary op l r p =>
      let a ← evalArg w fuel l
      let b ← evalArg w fuel r
      Eval.sized w (← Eval.at_ p (binaryOp op a b)) p
    | .both l r =>
      if ← evalCondition w fuel l then return .bool (← evalCondition w fuel r)
      else return .bool false
    | .either l r =>
      if ← evalCondition w fuel l then return .bool true
      else return .bool (← evalCondition w fuel r)
    | .orElse l r =>
      match ← evalExpr w fuel l with
      | .unit => evalExpr w fuel r
      | v => return v
    | .index .. | .prop .. | .method .. =>
      let (base, links) := e.links []
      let accesses ← evalLinks w fuel links
      evalChain w fuel base accesses none
    | .closure captured params body _ =>
      let cells ← captured.mapM fun n => do
        match ← Eval.share? n.name with
        | some c => return (n.name, c)
        | none => Eval.fail (.variableNotFound n.name) n.place
      return .closure "anon" cells params body
    | .block s => evalBody w fuel s
where
  /-- The module that a path of aliases leads to. -/
  findModule (path : List Ident) : Eval String := do
    match path with
    | [] => return ""
    | root :: _ =>
      match (← get).aliases.lookup root.name with
      | some m => return m
      | none => Eval.fail (.moduleNotFound (pathText path)) root.place
  /-- Call a function of a module. -/
  callModule (w : World) (path : List Ident) (n : Ident) (vs : List Value) : Eval Value := do
    let m ← findModule path
    let missing : Eval Value :=
      Eval.fail (.functionNotFound
        (Value.signature (pathText path ++ "::" ++ n.name) vs)) n.place
    match path, w.modules.lookup m with
    | [_], some functions =>
      match functions n.name vs with
      | none => missing
      | some result =>
        Eval.track w n.place
        match result with
        | .ok v => Eval.sized w v n.place
        | .error m => throw (.failed ⟨.foreign m, none, []⟩)
    | _, _ => missing

/-- The value of a condition. -/
def evalCondition (w : World) (fuel : Nat) (e : Expr) : Eval Bool := do
  match fuel with
  | 0 => throw .endless
  | fuel + 1 =>
    match ← evalExpr w fuel e with
    | .bool b => return b
    | v => Eval.fail (.typeMismatch v.typeName "bool") e.place

/-- The value of an argument. One that is written out is not counted. -/
def evalArg (w : World) (fuel : Nat) (e : Expr) : Eval Value := do
  match fuel with
  | 0 => throw .endless
  | fuel + 1 => if e.isConstant then evalBare w fuel e else evalExpr w fuel e

/-- The values of the arguments of a call by name. A variable that comes first
is looked up last, as the call may change it. -/
def evalCallArgs (w : World) (fuel : Nat) (args : List Expr) : Eval (List Value) := do
  match fuel with
  | 0 => throw .endless
  | fuel + 1 =>
    match args with
    | .var path n :: rest =>
      Eval.track w n.place
      let vs ← evalArgs w fuel rest
      return (← evalBare w fuel (.var path n)) :: vs
    | args => evalArgs w fuel args

/-- The values of arguments. -/
def evalArgs (w : World) (fuel : Nat) (args : List Expr) : Eval (List Value) := do
  match fuel with
  | 0 => throw .endless
  | fuel + 1 =>
    match args with
    | [] => return []
    | e :: rest =>
      let v ← evalArg w fuel e
      return v :: (← evalArgs w fuel rest)

/-- The items of an array after those in `done`, which hold `size`. -/
def evalItems (w : World) (fuel : Nat) (constant : Bool) (size : DataSize) (done : List Value)
    (items : List Expr) : Eval (List Value) := do
  match fuel with
  | 0 => throw .endless
  | fuel + 1 =>
    match items with
    | [] => return done.reverse
    | e :: rest =>
      let v ← if constant then evalBare w fuel e else evalExpr w fuel e
      let size := (size.add v.dataSize).add ⟨1, 0, 0⟩
      if !constant then Eval.checkSize w size e.place
      evalItems w fuel constant size (v :: done) rest

/-- The entries of a map after those in `done`, which hold `size`. -/
def evalFields (w : World) (fuel : Nat) (constant : Bool) (size : DataSize)
    (done : List (String × Value)) (fields : List (Ident × Expr)) :
    Eval (List (String × Value)) := do
  match fuel with
  | 0 => throw .endless
  | fuel + 1 =>
    match fields with
    | [] => return done
    | (n, e) :: rest =>
      let v ← if constant then evalBare w fuel e else evalExpr w fuel e
      let size := (size.add v.dataSize).add ⟨0, 1, 0⟩
      if !constant then Eval.checkSize w size e.place
      evalFields w fuel constant size (insertField n.name v done) rest

/-- Text behind what is done of it. -/
def evalText (w : World) (fuel : Nat) (done : String) (parts : List Expr) : Eval Value := do
  match fuel with
  | 0 => throw .endless
  | fuel + 1 =>
    match parts with
    | [] => return .str done
    | e :: rest =>
      let v ← evalExpr w fuel e
      let text := done ++ v.text
      Eval.checkSize w ⟨0, 0, text.utf8ByteSize⟩ e.startPlace
      evalText w fuel text rest

/-- The links of a chain with their arguments evaluated. -/
def evalLinks (w : World) (fuel : Nat) (links : List Link) : Eval (List Access) := do
  match fuel with
  | 0 => throw .endless
  | fuel + 1 =>
    match links with
    | [] => return []
    | .index e q :: rest =>
      let v ← evalArg w fuel e
      return .index v e.place q :: (← evalLinks w fuel rest)
    | .prop n q :: rest => return .prop n q :: (← evalLinks w fuel rest)
    | .method n args q :: rest =>
      let vs ← evalArgs w fuel args
      return .method n vs q :: (← evalLinks w fuel rest)

/-- The value at the end of a chain, or the assignment there. -/
def evalChain (w : World) (fuel : Nat) (base : Expr) (accesses : List Access)
    (assign : Option Assignment) : Eval Value := do
  match fuel with
  | 0 => throw .endless
  | fuel + 1 =>
    match base with
    | .var [] n =>
      match ← Eval.find? n.name with
      | some b =>
        Eval.track w n.place
        if b.constant && assign.isSome then Eval.fail (.constantAssigned n.name) n.place
        let (v, changed) ← follow w fuel b.constant (← Eval.load b.slot) accesses assign
        match changed with
        | some new => if !b.constant then Eval.store n.name new
        | none => pure ()
        return v
      | none =>
        let v ← evalExpr w fuel base
        return (← follow w fuel false v accesses assign).1
    | .this _ =>
      let v ← evalExpr w fuel base
      let (r, changed) ← follow w fuel false v accesses assign
      match changed with
      | some new => modify fun s => { s with this := some new }
      | none => pure ()
      return r
    | _ =>
      let v ← evalExpr w fuel base
      return (← follow w fuel false v accesses assign).1

/-- Follow the links of a chain from a value. Answers with what stands at the
end, and with the value as it is afterwards if that has changed. -/
def follow (w : World) (fuel : Nat) (constant : Bool) (v : Value) (accesses : List Access)
    (assign : Option Assignment) : Eval (Value × Option Value) := do
  match fuel with
  | 0 => throw .endless
  | fuel + 1 =>
    match accesses with
    | [] => return (v, none)
    | a :: rest =>
      if a.lenient && v.typeName = "()" then return (.unit, none)
      let final := if rest.isEmpty then assign else none
      match a with
      | .index idx p _ =>
        match final with
        | some new =>
          let x ← newValue w (entry v idx) new p
          return (.unit, some (← Eval.at_ p (setEntry v idx x)))
        | none =>
          let sub ← Eval.at_ p (entry v idx)
          let (r, changed) ← follow w fuel constant sub rest assign
          match changed with
          | some x => return (r, some (← Eval.at_ p (setEntry v idx x)))
          | none => return (r, none)
      | .prop n _ =>
        match final with
        | some new =>
          let x ← newValue w (property v n.name) new n.place
          return (.unit, some (← Eval.at_ n.place (setProperty v n.name x)))
        | none =>
          let sub ← Eval.at_ n.place (property v n.name)
          let (r, changed) ← follow w fuel constant sub rest assign
          match changed with
          | some x => return (r, some (← Eval.at_ n.place (setProperty v n.name x)))
          | none => return (r, none)
      | .method n args _ =>
        let (r, changed) ← callMethod w fuel constant v n args
        let (r, _) ← follow w fuel false r rest assign
        return (r, changed)
where
  /-- The value that an assignment puts in the place of an old one. -/
  newValue (w : World) (old : Computed Value) (a : Assignment) (place : Place) : Eval Value := do
    if a.op = "" then return a.value
    else
      let x ← Eval.at_ place old
      Eval.sized w (← Eval.at_ a.place (assignOp a.op x a.value)) a.place

/-- Call a function on a value. Answers with the value as it is afterwards if
that may have changed. -/
def callMethod (w : World) (fuel : Nat) (constant : Bool) (v : Value) (n : Ident)
    (args : List Value) : Eval (Value × Option Value) := do
  match fuel with
  | 0 => throw .endless
  | fuel + 1 =>
    let own : Option Value := match v with
      | .map fields =>
        match fields.lookup n.name with
        | some (.closure f captured params body) => some (.closure f captured params body)
        | _ => none
      | _ => none
    match v, own with
    | .closure name captured params body, _ =>
      if n.name = "call" then
        return ((← callClosure w fuel name captured params body none args n.place).1, none)
      else callNamed w fuel constant v n args
    | _, some (.closure name captured params body) =>
      callClosure w fuel name captured params body (some v) args n.place
    | _, _ => callNamed w fuel constant v n args

/-- Call a function of the script, or a built-in one, on a value. -/
def callNamed (w : World) (fuel : Nat) (constant : Bool) (v : Value) (n : Ident)
    (args : List Value) : Eval (Value × Option Value) := do
  match fuel with
  | 0 => throw .endless
  | fuel + 1 =>
    match w.functions.find? fun f => f.name = n.name && f.params.length = args.length with
    | some f => callScript w fuel f (some v) args n.place
    | none =>
      if constant && changesReceiver n.name (v :: args) then
        Eval.fail (.constantReceiver n.name) n.place
      else callBuiltin w fuel n (v :: args)

/-- Call a built-in function. -/
def callBuiltin (w : World) (fuel : Nat) (n : Ident) (args : List Value) :
    Eval (Value × Option Value) := do
  match fuel with
  | 0 => throw .endless
  | fuel + 1 =>
    Eval.track w n.place
    match n.name, args with
    | "print", [v] =>
      modify fun s => { s with printed := v.text :: s.printed }
      return (.unit, none)
    | "debug", [_] => return (.unit, none)
    | "map", [.array items, .closure name captured params body] =>
      let each ← overItems w fuel (.closure name captured params body) (fun _ => true) items n.place
      return (.array each, none)
    | "for_each", [.array items, .closure name captured params body] =>
      let _ ← overItems w fuel (.closure name captured params body) (fun _ => true) items n.place
      return (.unit, none)
    | "filter", [.array items, .closure name captured params body] =>
      let each ← overItems w fuel (.closure name captured params body) (fun _ => true) items n.place
      return (.array (((items.zip each).filter (·.2.holds)).map (·.1)), none)
    | "some", [.array items, .closure name captured params body] =>
      let each ← overItems w fuel (.closure name captured params body) (!·.holds) items n.place
      return (.bool (each.any (·.holds)), none)
    | "all", [.array items, .closure name captured params body] =>
      let each ← overItems w fuel (.closure name captured params body) (·.holds) items n.place
      return (.bool (each.all (·.holds)), none)
    | "find", [.array items, .closure name captured params body] =>
      let each ← overItems w fuel (.closure name captured params body) (!·.holds) items n.place
      return ((((items.zip each).find? (·.2.holds)).map (·.1)).getD .unit, none)
    | "reduce", .array items :: .closure name captured params body :: initial =>
      if 1 < initial.length then
        Eval.fail (.functionNotFound (Value.signature n.name args)) n.place
      let v ← Eval.iterate (fun (rest, index, sum) => do
        match rest with
        | [] => return .inr sum
        | v :: rest =>
          let vs := if params.length = 3 then [sum, v, .int index] else [sum, v]
          let (sum, _) ← callClosure w fuel name captured params body none vs n.place
          return .inl (rest, index + 1, sum)) w.rounds (items, (0 : Int), initial.headD .unit)
      return (v, none)
    | name, args =>
      match builtin name args with
      | none => Eval.fail (.functionNotFound (Value.signature name args)) n.place
      | some result =>
        let (v, changed) ← Eval.at_ n.place result
        match changed with
        | some x => Eval.checkSize w x.dataSize n.place
        | none => pure ()
        return (← Eval.sized w v n.place, changed)

/-- The results of a function for the items of an array, each with its index if
the function takes two, up to the first result that ends the walk. -/
def overItems (w : World) (fuel : Nat) (f : Value) (goOn : Value → Bool) (items : List Value)
    (place : Place) : Eval (List Value) := do
  match fuel, f with
  | fuel + 1, .closure name captured params body =>
    let all ← Eval.iterate (fun (rest, index, done) => do
      match rest with
      | [] => return .inr (.array done.reverse)
      | item :: rest =>
        let (this, vs) := match params.length with
          | 0 => (some item, [])
          | 1 => (none, [item])
          | _ => (none, [item, .int index])
        let (v, _) ← callClosure w fuel name captured params body this vs place
        if goOn v then return .inl (rest, index + 1, v :: done)
        else return .inr (.array (v :: done).reverse)) w.rounds
      (items, (0 : Int), ([] : List Value))
    match all with
    | .array each => return each
    | _ => return []
  | _, _ => throw .endless

/-- Call a function of the script. -/
def callScript (w : World) (fuel : Nat) (f : FnDef) (this : Option Value) (args : List Value)
    (place : Place) : Eval (Value × Option Value) := do
  match fuel with
  | 0 => throw .endless
  | fuel + 1 =>
    let scope := (f.params.zip args).reverse.map fun (name, v) => (⟨name, false, .own v⟩ : Binding)
    enter w fuel f.name scope this f.body place

/-- Call a closure. -/
def callClosure (w : World) (fuel : Nat) (name : String) (captured : List (String × Nat))
    (params : List String) (body : Stmt) (this : Option Value) (args : List Value)
    (place : Place) : Eval (Value × Option Value) := do
  match fuel with
  | 0 => throw .endless
  | fuel + 1 =>
    if params.length ≠ args.length then
      Eval.fail (.functionNotFound (Value.signature name args)) place
    let own := (params.zip args).reverse.map fun (name, v) => (⟨name, false, .own v⟩ : Binding)
    let outer := captured.map fun (name, c) => (⟨name, false, .shared c⟩ : Binding)
    enter w fuel name (own ++ outer) this body place

/-- Run the body of a function that is called at a place. -/
def enter (w : World) (fuel : Nat) (name : String) (scope : List Binding) (this : Option Value)
    (body : Stmt) (place : Place) : Eval (Value × Option Value) := do
  match fuel with
  | 0 => throw .endless
  | fuel + 1 =>
    Eval.track w place
    if w.limits.maxCallLevels < (← get).level + 1 then Eval.fail .stackOverflow place
    fun s =>
      match Eval.inFunction scope this (evalBody w fuel body) s with
      | .error (.failed f) s' => .error (.failed (f.outOf name place)) s'
      | r => r

/-- A call by name. A built-in function changes its first argument if that is a variable. -/
def evalCall (w : World) (fuel : Nat) (n : Ident) (args : List Expr) : Eval Value := do
  match fuel with
  | 0 => throw .endless
  | fuel + 1 =>
    let vs ← evalCallArgs w fuel args
    match w.functions.find? fun f => f.name = n.name && f.params.length = args.length with
    | some f => return (← callScript w fuel f none vs n.place).1
    | none =>
      match n.name, vs with
      | "call", .closure name captured params body :: rest =>
        return (← callClosure w fuel name captured params body none rest n.place).1
      | "is_def_var", [.str name] => return .bool (← Eval.find? name).isSome
      | "is_def_fn", [.str name, .int arity] =>
        return .bool (w.functions.any fun f => f.name = name && f.params.length = arity)
      | "is_shared", [_] =>
        match args with
        | [.var [] target] =>
          match ← Eval.find? target.name with
          | some ⟨_, _, .shared _⟩ => return .bool true
          | _ => return .bool false
        | _ => return .bool false
      | "Fn", [.str name] =>
        match w.functions.find? (·.name = name) with
        | some f => return .closure f.name [] f.params f.body
        | none => return .closure name [] [] (.skip n.place)
      | _, _ =>
        let (v, changed) ← callBuiltin w fuel n vs
        match changed, args with
        | some x, .var [] target :: _ =>
          match ← Eval.find? target.name with
          | some ⟨_, false, .own _⟩ => Eval.store target.name x
          | _ => pure ()
        | _, _ => pure ()
        return v

/-- The value of a statement in a block of its own. -/
def evalBody (w : World) (fuel : Nat) (s : Stmt) : Eval Value := do
  match fuel with
  | 0 => throw .endless
  | fuel + 1 =>
    match s with
    | .block body _ =>
      let outer := (← get).scope.length
      Eval.inBlock (evalStmts w fuel outer .unit body)
    | .skip _ => return .unit
    | s =>
      let outer := (← get).scope.length
      Eval.inBlock (evalStmt w fuel outer s)

/-- The value of the last of the statements; `last` if there is none. -/
def evalStmts (w : World) (fuel : Nat) (outer : Nat) (last : Value) (body : List Stmt) :
    Eval Value := do
  match fuel with
  | 0 => throw .endless
  | fuel + 1 =>
    match body with
    | [] => return last
    | s :: rest =>
      let v ← evalStmt w fuel outer s
      evalStmts w fuel outer v rest

/-- The value of a statement, in a block that started with `outer` variables in scope. -/
def evalStmt (w : World) (fuel : Nat) (outer : Nat) (s : Stmt) : Eval Value := do
  match fuel with
  | 0 => throw .endless
  | fuel + 1 =>
    Eval.track w s.place
    match s with
    | .skip _ | .define .. => return .unit
    | .expr e =>
      match e with
      | .call .. | .unary .. | .binary .. => evalBare w fuel e
      | e => evalExpr w fuel e
    | .bind constant n value _ =>
      let v ← match value with
        | some e => evalExpr w fuel e
        | none => pure .unit
      Eval.bind outer n.name constant v
      return .unit
    | .assign op target value p =>
      let v ← evalExpr w fuel value
      evalAssign w fuel op target v p
      return .unit
    | .block .. => evalBody w fuel s
    | .cond guard yes no _ =>
      if ← evalCondition w fuel guard then evalBody w fuel yes else evalBody w fuel no
    | .choice subject cases otherwise _ =>
      let v ← evalExpr w fuel subject
      evalCases w fuel (casesFor v cases) otherwise
    | .loop guard body _ =>
      let always := match guard with
        | none | some (.literal (.bool true) _) => true
        | _ => false
      Eval.iterate (fun () => do
        let goOn ← match guard with
          | some e => if always then pure true else evalCondition w fuel e
          | none => pure true
        if goOn then
          if body.isEmpty then
            if always then Eval.track w body.place
            return .inl ()
          match ← Eval.oneRound (evalBody w fuel body) with
          | some v => return .inr v
          | none => return .inl ()
        else return .inr .unit) (w.rounds) ()
    | .until body guard wanted _ =>
      Eval.iterate (fun () => do
        match ← Eval.oneRound (evalBody w fuel body) with
        | some v => return .inr v
        | none =>
          if (← evalCondition w fuel guard) = wanted then return .inl ()
          else return .inr .unit) (w.rounds) ()
    | .each name counter source body _ =>
      let v ← evalExpr w fuel source
      match Items.ofValue? v with
      | none => Eval.fail .notIterable source.startPlace
      | some items =>
        Eval.inBlock do
          match counter with
          | some c => Eval.push c.name (.int 0)
          | none => pure ()
          Eval.push name.name .unit
          Eval.iterate (fun (items, count) => do
            match Items.next? items with
            | none => return .inr .unit
            | some (v, items) =>
              if body.isEmpty then
                Eval.track w body.place
                return .inl (items, count + 1)
              match counter with
              | some c => Eval.store c.name (.int count)
              | none => pure ()
              Eval.store name.name v
              match ← Eval.oneRound (evalBody w fuel body) with
              | some v => return .inr v
              | none => return .inl (items, count + 1)) (w.rounds) (items, (0 : Int))
    | .leave value _ =>
      let v ← evalOptional w fuel value
      throw (.left v)
    | .next _ => throw .continued
    | .give value _ =>
      let v ← evalOptional w fuel value
      throw (.gave v)
    | .raise value p =>
      let v ← evalOptional w fuel value
      Eval.fail (.thrown v) p
    | .attempt body name handler _ =>
      match ← Eval.attempt (evalBody w fuel body) with
      | .ok v => return v
      | .error f =>
        if f.cause.isLimit then throw (.failed f)
        let handled ← Eval.attempt (Eval.inBlock do
          match name with
          | some n => Eval.push n.name f.caught
          | none => pure ()
          evalBody w fuel handler)
        match handled with
        | .ok _ => return .unit
        | .error g =>
          match g.cause, g.calls with
          | .thrown .unit, [] => throw (.failed (f.again g.place))
          | _, _ => throw (.failed g)
    | .load source name _ =>
      match ← evalExpr w fuel source with
      | .str m =>
        if (w.modules.lookup m).isNone then Eval.fail (.moduleNotFound m) source.startPlace
        match name with
        | some n => modify fun s => { s with aliases := (n.name, m) :: s.aliases }
        | none => pure ()
        return .unit
      | v => Eval.fail (.typeMismatch v.typeName "string") source.place

/-- The value of an expression, `()` if there is none. -/
def evalOptional (w : World) (fuel : Nat) (e : Option Expr) : Eval Value := do
  match fuel with
  | 0 => throw .endless
  | fuel + 1 =>
    match e with
    | some e => evalExpr w fuel e
    | none => return .unit

/-- The value of the first case whose guard holds. -/
def evalCases (w : World) (fuel : Nat) (cases : List Case) (otherwise : Option Stmt) :
    Eval Value := do
  match fuel with
  | 0 => throw .endless
  | fuel + 1 =>
    match cases with
    | [] =>
      match otherwise with
      | some s => evalBody w fuel s
      | none => return .unit
    | .mk _ _ guard body :: rest =>
      let holds ← match guard with
        | some e => evalCondition w fuel e
        | none => pure true
      if holds then evalBody w fuel body else evalCases w fuel rest otherwise

/-- Assign a value. -/
def evalAssign (w : World) (fuel : Nat) (op : String) (target : Expr) (v : Value)
    (place : Place) : Eval Unit := do
  match fuel with
  | 0 => throw .endless
  | fuel + 1 =>
    match target with
    | .var [] n =>
      match ← Eval.find? n.name with
      | none => Eval.fail (.variableNotFound n.name) n.place
      | some b =>
        if b.constant then Eval.fail (.constantAssigned n.name) n.place
        Eval.track w n.place
        if op = "" then Eval.store n.name v
        else
          let old ← Eval.load b.slot
          let new ← Eval.sized w (← Eval.at_ place (assignOp op old v)) place
          Eval.store n.name new
    | .this p =>
      match (← get).this with
      | none => Eval.fail .noReceiver p
      | some old =>
        let new ← if op = "" then pure v else Eval.at_ place (assignOp op old v)
        modify fun s => { s with this := some new }
    | target =>
      let (base, links) := target.links []
      let accesses ← evalLinks w fuel links
      let _ ← evalChain w fuel base accesses (some ⟨op, v, place⟩)

end

/-- How a run ended. -/
inductive Ending where
  | value (v : Value)
  | failed (fault : RunFault)
  /-- It does not end. -/
  | endless
  deriving Inhabited

/-- Run a program of at most `size` characters. -/
def run (w : World) (p : Program) (size : Nat) : Ending × Machine :=
  let w := { w with functions := p.simplifiedFunctions }
  let fuel := (16 * size + 64) * (w.limits.maxCallLevels + 2)
  match evalStmts w fuel 0 .unit p.simplified Machine.initial with
  | .ok v s => (.value v, s)
  | .error (.gave v) s => (.value v, s)
  | .error (.failed f) s => (.failed f, s)
  | .error (.left v) s => (.value v, s)
  | .error .continued s => (.value .unit, s)
  | .error .endless s => (.endless, s)

end LiveScene.Script
