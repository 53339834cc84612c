import LiveScene.Proofs.Sandbox.Decoding

/-!
# Terms of the module

A `Term` is a call of a function of the module. What it takes as nodes, shapes
or figures are calls again or any other values, and lists of them may be
arranged in arrays (`Args`). Its type keeps a term from calling a function with
what another one makes, or with more arguments than it takes.

`Term.value` evaluates a term: each call decodes the values of its arguments
and gives a value. `Term.build?` hands the arguments to the builders, each list
without the arrays. An argument that is no call may not decode, and then
neither comes to anything (`Term.decodes`).

What a call gives decodes again (`Kind.decode?_encode`), so the two agree on an
argument if they agree on the call in it (`Arg.bind_value`, `Args.bind_values`),
and on a call if they agree on its arguments (`Term.toOption_value`).
`Term.means_builders` puts this together.
-/

namespace LiveScene.Sandbox

open Json Scene Script

/-! ## What functions make -/

/-- What the functions of the module make. -/
inductive Kind where
  | node
  | shape
  | figure
  | picture

namespace Kind

/-- What the builders make. -/
abbrev Made : Kind → Type
  | node => Node
  | shape => Shape
  | figure => Figure
  | picture => Picture

/-- The JSON form. -/
def toJson : (k : Kind) → k.Made → Json
  | node => Node.toJson
  | shape => Shape.toJson
  | figure => Figure.toJson
  | picture => Picture.toJson

/-- Decode a form, as the functions do. -/
def ofJson? : (k : Kind) → Json → Option k.Made
  | node => Node.ofJson?
  | shape => Shape.ofJson? .script
  | figure => Figure.ofJson? .script
  | picture => Picture.ofJson? .script

variable (k : Kind)

/-- What is made as a value of a script. -/
def encode (a : k.Made) : Value := .ofJson (k.toJson a)

/-- A value of a script as an argument. -/
def decode? (v : Value) : Option k.Made := (fieldForm? v).bind k.ofJson?

/-- What is made is decoded from its value. -/
theorem decode?_encode (a : k.Made) : k.decode? (k.encode a) = some a := by
  have hback : k.ofJson? (returned (k.toJson a)) = some a := by
    have hkept (xs : List Float) : xs.all (fun _ => true) = true :=
      List.all_eq_true.2 fun _ _ => rfl
    cases k with
    | node => exact (Node.readsBack carrier_returned a).trans (if_pos (hkept _))
    | shape => exact (Shape.readsBack carrier_returned .script a).trans (if_pos (hkept _))
    | figure => exact (Figure.readsBack carrier_returned .script a).trans (if_pos (hkept _))
    | picture => exact (Picture.readsBack carrier_returned .script a).trans (if_pos (hkept _))
  rw [encode, decode?, fieldForm?_ofJson, Option.bind_some, hback]

/-- The value of what is made is no array of others. -/
theorem flat_encode (a : k.Made) : flat (k.encode a) = [k.encode a] := by
  cases k with
  | node => cases a <;> rfl
  | shape | figure | picture => rfl

end Kind

/-! ## Numbers and options -/

/-- A number as a script writes it. -/
inductive Number where
  | int (n : Int)
  | float (x : Float)

namespace Number

/-- The value. -/
def value : Number → Value
  | int n => .int n
  | float x => .float x

/-- The number that the builders take. -/
def toFloat : Number → Float
  | int n => .ofInt n
  | float x => x

end Number

/-- Options as a script writes them. -/
inductive Setting (α : Type) where
  /-- A map of the fields that are set. -/
  | fields (o : α)
  /-- Any value. -/
  | given (v : Value)

namespace Setting

variable {α : Type}

/-- The value, from the form of options with the fields that are set. -/
def value (form : α → Json) : Setting α → SceneModule.Built Value
  | fields o => .ok (.ofJson (form o))
  | given v => .ok v

/-- The options that the builders take. -/
def build? (decode : Json → Option α) : Setting α → Option α
  | fields o => some o
  | given v => (fieldForm? v).bind decode

/-- The value of options decodes to what the builders take. -/
theorem bind_value {form : α → Json} {decode : Json → Option α}
    (h : ∀ o, decode (returned (form o)) = some o) (s : Setting α) :
    ((s.value form).toOption.bind fun v => (fieldForm? v).bind decode) = s.build? decode := by
  cases s with
  | fields o =>
    show (fieldForm? (.ofJson (form o))).bind decode = some o
    rw [fieldForm?_ofJson, Option.bind_some, h o]
  | given v => rfl

end Setting

/-- The field of an optional value, if there is one. -/
def fieldOf {α : Type} (name : String) (encode : α → Json) (o : Option α) :
    List (String × Json) :=
  o.toList.map fun a => (name, encode a)

/-- The form of options of a shape with the fields that are set. -/
def shapeFields (o : ShapeOptions) : Json :=
  .obj (fieldOf "color" Color.toJson o.color ++ fieldOf "draw_mode" DrawMode.toJson o.drawMode)

/-- The form of options of a scene with the fields that are set. -/
def sceneFields (o : SceneOptions) : Json :=
  .obj (fieldOf "unit" .str o.unit ++ fieldOf "simplify" .bool o.simplify)

/-- Options of a shape are decoded from the fields that are set. -/
theorem ofJson?_shapeFields (o : ShapeOptions) :
    ShapeOptions.ofJson? .script (returned (shapeFields o)) = some o := by
  have hc := carrier_returned
  obtain ⟨color, drawMode⟩ := o
  have hcolor (c : Color) : Json.optional (Color.ofJson? .script) (some (returned c.toJson)) =
      some (some c) :=
    (Color.readsBack hc .script).optional hc (Color.carry_ne_null hc) (some c)
  have hdrawMode (m : DrawMode) : Json.optional DrawMode.ofJson? (some (returned m.toJson)) =
      some (some m) :=
    (DrawMode.readsBack hc).optional hc
      (DrawMode.carry_ne_null hc) (some m)
  cases color <;> cases drawMode <;>
    simp [shapeFields, fieldOf, ShapeOptions.ofJson?, Dialect.record?_carry _ hc,
      List.lookup_cons, hcolor, hdrawMode]

/-- So are options of a scene. -/
theorem ofJson?_sceneFields (o : SceneOptions) :
    SceneOptions.ofJson? .script (returned (sceneFields o)) = some o := by
  have hc := carrier_returned
  obtain ⟨unit, simplify⟩ := o
  cases unit <;> cases simplify <;>
    simp [sceneFields, fieldOf, SceneOptions.ofJson?, Dialect.record?_carry _ hc,
      List.lookup_cons, hc.str, hc.bool, Json.str?, Json.bool?, Json.optional]

/-! ## Terms -/

mutual

/-- A call of a function of the module. -/
inductive Term : Kind → Type where
  | circle (x y r : Number) : Term .node
  | rect (x y w h : Number) : Term .node
  | and {n : Nat} (hn : 1 ≤ n ∧ n ≤ maxVariadicArguments) (args : Args .node n) : Term .node
  | or {n : Nat} (hn : 1 ≤ n ∧ n ≤ maxVariadicArguments) (args : Args .node n) : Term .node
  | not (t : Arg .node) : Term .node
  | subtract (a b : Arg .node) : Term .node
  | modulate (howMuch : Number) (t : Arg .node) : Term .node
  | translate (dx dy : Number) (t : Arg .node) : Term .node
  | breakHere (t : Arg .node) : Term .node
  | freeze (t : Arg .node) : Term .node
  | smoothOuter (howMuch : Number) (t : Arg .node) : Term .node
  | smoothInner (howMuch : Number) (t : Arg .node) : Term .node
  | shape (t : Arg .node) (options : Option (Setting ShapeOptions)) : Term .shape
  | figure {n : Nat} (hn : n ≤ maxVariadicArguments) (args : Args .shape n) : Term .figure
  | scene (figures : Args .figure 1) (options : Option (Setting SceneOptions)) : Term .picture
  | singletonScene (t : Arg .node) : Term .picture

/-- An argument: a call, or any other value. -/
inductive Arg : Kind → Type where
  | call {k : Kind} (t : Term k) : Arg k
  | given {k : Kind} (v : Value) : Arg k

/-- A list of `n` arguments, some of them arrays of arguments. -/
inductive Args : Kind → Nat → Type where
  | nil {k : Kind} : Args k 0
  | one {k : Kind} {n : Nat} (a : Arg k) (rest : Args k n) : Args k (n + 1)
  | array {k : Kind} {m n : Nat} (inner : Args k m) (rest : Args k n) : Args k (n + 1)

end

/-! ## Evaluation -/

/-- Call a function of the module. -/
def invoke (function : String) (args : List Value) : SceneModule.Built Value :=
  (SceneModule.call function args).getD (.error (Value.signature function args))

mutual

/-- What a call evaluates to. -/
def Term.value {k : Kind} : Term k → SceneModule.Built Value
  | .circle x y r => invoke "circle" [x.value, y.value, r.value]
  | .rect x y w h => invoke "rect" [x.value, y.value, w.value, h.value]
  | .and _ args => do invoke "and" (← args.values)
  | .or _ args => do invoke "or" (← args.values)
  | .not t => do invoke "not" [← t.value]
  | .subtract a b => do invoke "subtract" [← a.value, ← b.value]
  | .modulate howMuch t => do invoke "modulate" [howMuch.value, ← t.value]
  | .translate dx dy t => do invoke "translate" [dx.value, dy.value, ← t.value]
  | .breakHere t => do invoke "break_here" [← t.value]
  | .freeze t => do invoke "freeze" [← t.value]
  | .smoothOuter howMuch t => do invoke "smooth_outer" [howMuch.value, ← t.value]
  | .smoothInner howMuch t => do invoke "smooth_inner" [howMuch.value, ← t.value]
  | .shape t none => do invoke "shape" [← t.value]
  | .shape t (some o) => do invoke "shape" [← t.value, ← o.value shapeFields]
  | .figure _ args => do invoke "figure" (← args.values)
  | .scene figures none => do invoke "scene" (← figures.values)
  | .scene figures (some o) => do invoke "scene" ((← figures.values) ++ [← o.value sceneFields])
  | .singletonScene t => do invoke "singleton_scene" [← t.value]

/-- What an argument evaluates to. -/
def Arg.value {k : Kind} : Arg k → SceneModule.Built Value
  | .call t => t.value
  | .given v => .ok v

/-- What arguments evaluate to, one after the other. -/
def Args.values {k : Kind} {n : Nat} : Args k n → SceneModule.Built (List Value)
  | .nil => .ok []
  | .one a rest => do return (← a.value) :: (← rest.values)
  | .array inner rest => do return (← inner.values.map .array) :: (← rest.values)

end

/-! ## Building -/

mutual

/-- What the builders make of a call, if all arguments decode. -/
def Term.build? {k : Kind} : Term k → Option k.Made
  | .circle x y r => some (.circle x.toFloat y.toFloat r.toFloat)
  | .rect x y w h => some (.rect x.toFloat y.toFloat w.toFloat h.toFloat)
  | .and _ args => args.build?.map Node.and
  | .or _ args => args.build?.map Node.or
  | .not t => t.build?.map Node.not
  | .subtract a b => do return Node.subtract (← a.build?) (← b.build?)
  | .modulate howMuch t => t.build?.map (Node.modulate howMuch.toFloat)
  | .translate dx dy t => t.build?.map (Node.translate dx.toFloat dy.toFloat)
  | .breakHere t => t.build?.map Node.breakHere
  | .freeze t => t.build?.map Node.freeze
  | .smoothOuter howMuch t => t.build?.map (Node.smoothOuter howMuch.toFloat)
  | .smoothInner howMuch t => t.build?.map (Node.smoothInner howMuch.toFloat)
  | .shape t none => t.build?.map (Scene.shape · none)
  | .shape t (some o) => do
    return Scene.shape (← t.build?) (some (← o.build? (ShapeOptions.ofJson? .script)))
  | .figure _ args => args.build?.map Scene.figure
  | .scene figures none => figures.build?.map (Scene.scene · none)
  | .scene figures (some o) => do
    return Scene.scene (← figures.build?) (some (← o.build? (SceneOptions.ofJson? .script)))
  | .singletonScene t => t.build?.map Scene.singletonScene

/-- What the builders take for an argument. -/
def Arg.build? {k : Kind} : Arg k → Option k.Made
  | .call t => t.build?
  | .given v => k.decode? v

/-- What the builders take for an argument in a list: an array stands for its items. -/
def Arg.parts? {k : Kind} : Arg k → Option (List k.Made)
  | .call t => t.build?.map ([·])
  | .given v => (flat v).mapM k.decode?

/-- What the builders take for arguments, from left to right and without the arrays. -/
def Args.build? {k : Kind} {n : Nat} : Args k n → Option (List k.Made)
  | .nil => some []
  | .one a rest => do return (← a.parts?) ++ (← rest.build?)
  | .array inner rest => do return (← inner.build?) ++ (← rest.build?)

end

/-! ## Arguments that decode -/

/-- Whether the options decode. -/
def Setting.decodes {α : Type} (decode : Json → Option α) : Setting α → Bool
  | fields _ => true
  | given v => ((fieldForm? v).bind decode).isSome

mutual

/-- Whether all arguments decode, anywhere in a call. -/
def Term.decodes {k : Kind} : Term k → Bool
  | .circle .. | .rect .. => true
  | .and _ args | .or _ args => args.decodes
  | .not t | .modulate _ t | .translate _ _ t | .breakHere t | .freeze t | .smoothOuter _ t
  | .smoothInner _ t | .shape t none | .singletonScene t => t.decodes
  | .subtract a b => a.decodes && b.decodes
  | .shape t (some o) => t.decodes && o.decodes (ShapeOptions.ofJson? .script)
  | .figure _ args => args.decodes
  | .scene figures none => figures.decodes
  | .scene figures (some o) => figures.decodes && o.decodes (SceneOptions.ofJson? .script)

/-- Whether an argument decodes, and all arguments in it if it is a call. -/
def Arg.decodes {k : Kind} : Arg k → Bool
  | .call t => t.decodes
  | .given v => (k.decode? v).isSome

/-- `Arg.decodes` for the items of an argument in a list. -/
def Arg.partsDecode {k : Kind} : Arg k → Bool
  | .call t => t.decodes
  | .given v => (flat v).all fun w => (k.decode? w).isSome

/-- `Arg.partsDecode` for all arguments. -/
def Args.decodes {k : Kind} {n : Nat} : Args k n → Bool
  | .nil => true
  | .one a rest => a.partsDecode && rest.decodes
  | .array inner rest => inner.decodes && rest.decodes

end

/-- All of a list are made if each of them is. -/
theorem isSome_mapM {α β : Type} (f : α → Option β) (as : List α) :
    (as.mapM f).isSome = as.all fun a => (f a).isSome := by
  induction as with
  | nil => rfl
  | cons a rest ih =>
    rw [List.all_cons, ← ih, List.mapM_cons]
    cases f a with
    | none => rfl
    | some b => cases rest.mapM f <;> rfl

theorem isSome_both {α β γ : Type} (f : α → β → γ) (a? : Option α) (b? : Option β) :
    (do return f (← a?) (← b?) : Option γ).isSome = (a?.isSome && b?.isSome) := by
  cases a? <;> cases b? <;> rfl

/-- Options are taken if they decode. -/
theorem Setting.isSome_build? {α : Type} (decode : Json → Option α) (s : Setting α) :
    (s.build? decode).isSome = s.decodes decode := by
  cases s <;> rfl

mutual

/-- The builders make something of a call if all arguments in it decode, else nothing. -/
theorem Term.isSome_build? {k : Kind} (t : Term k) : t.build?.isSome = t.decodes := by
  match t with
  | .circle .. | .rect .. => rfl
  | .and _ args | .or _ args | .figure _ args | .scene args none =>
    simpa [Term.build?, Term.decodes] using args.isSome_build?
  | .not t | .modulate _ t | .translate _ _ t | .breakHere t | .freeze t | .smoothOuter _ t
  | .smoothInner _ t | .shape t none | .singletonScene t =>
    simpa [Term.build?, Term.decodes] using t.isSome_build?
  | .subtract a b =>
    rw [Term.build?, isSome_both, a.isSome_build?, b.isSome_build?, Term.decodes]
  | .shape t (some o) =>
    rw [Term.decodes, ← t.isSome_build?, ← o.isSome_build?]
    exact isSome_both (fun n o => Scene.shape n (some o)) _ _
  | .scene figures (some o) =>
    rw [Term.decodes, ← figures.isSome_build?, ← o.isSome_build?]
    exact isSome_both (fun fs o => Scene.scene fs (some o)) _ _

/-- The builders take an argument if all in it decodes. -/
theorem Arg.isSome_build? {k : Kind} (a : Arg k) : a.build?.isSome = a.decodes := by
  match a with
  | .call t => rw [Arg.build?, t.isSome_build?, Arg.decodes]
  | .given v => rfl

/-- They take its parts if all in these decodes. -/
theorem Arg.isSome_parts? {k : Kind} (a : Arg k) : a.parts?.isSome = a.partsDecode := by
  match a with
  | .call t => simpa [Arg.parts?, Arg.partsDecode] using t.isSome_build?
  | .given v => rw [Arg.parts?, isSome_mapM, Arg.partsDecode]

/-- They take a list of arguments if all in it decodes. -/
theorem Args.isSome_build? {k : Kind} {n : Nat} (args : Args k n) :
    args.build?.isSome = args.decodes := by
  match args with
  | .nil => rfl
  | .one a rest => rw [Args.build?, isSome_both, a.isSome_parts?, rest.isSome_build?, Args.decodes]
  | .array inner rest =>
    rw [Args.build?, isSome_both, inner.isSome_build?, rest.isSome_build?, Args.decodes]

end

/-! ## Agreement -/

section ToOption

variable {ε α β : Type}

@[simp] theorem toOption_bind (x : Except ε α) (f : α → Except ε β) :
    (x >>= f).toOption = x.toOption.bind fun a => (f a).toOption := by
  cases x <;> rfl

@[simp] theorem toOption_map (f : α → β) (x : Except ε α) :
    (x.map f).toOption = x.toOption.map f := by
  cases x <;> rfl

@[simp] theorem toOption_fmap (f : α → β) (x : Except ε α) :
    (f <$> x).toOption = x.toOption.map f :=
  toOption_map f x

@[simp] theorem toOption_ok (a : α) : (.ok a : Except ε α).toOption = some a :=
  rfl

@[simp] theorem toOption_error (e : ε) : (.error e : Except ε α).toOption = none :=
  rfl

@[simp] theorem toOption_pure (a : α) : (pure a : Except ε α).toOption = some a :=
  rfl

/-- Steps one after another give what they give without their errors. -/
theorem toOption_mapM (f : α → Except ε β) (as : List α) :
    (as.mapM f).toOption = as.mapM fun a => (f a).toOption := by
  induction as with
  | nil => rfl
  | cons a rest ih =>
    simp only [List.mapM_cons, toOption_bind, ih, toOption_pure]
    rfl

end ToOption

/-- An argument is decoded from its form. -/
theorem toOption_decoded {α : Type} (decode : Json → Option α) (function what : String)
    (v : Value) :
    (SceneModule.decoded decode function what v).toOption = (fieldForm? v).bind decode := by
  unfold SceneModule.decoded
  cases (fieldForm? v).bind decode <;> rfl

@[simp] theorem toOption_node (function : String) (v : Value) :
    (SceneModule.node function v).toOption = Kind.node.decode? v :=
  toOption_decoded ..

@[simp] theorem toOption_nodes (function : String) (args : List Value) :
    (SceneModule.nodes function args).toOption = (flatAll args).mapM Kind.node.decode? := by
  simp [SceneModule.nodes, toOption_mapM]

@[simp] theorem toOption_oneShape (v : Value) :
    (SceneModule.oneShape v).toOption = Kind.shape.decode? v :=
  toOption_decoded ..

@[simp] theorem toOption_oneFigure (v : Value) :
    (SceneModule.oneFigure v).toOption = Kind.figure.decode? v :=
  toOption_decoded ..

@[simp] theorem toOption_shapeOptions (v : Value) :
    (SceneModule.shapeOptions v).toOption =
      (fieldForm? v).bind (ShapeOptions.ofJson? .script) :=
  toOption_decoded ..

@[simp] theorem toOption_sceneOptions (v : Value) :
    (SceneModule.sceneOptions v).toOption =
      (fieldForm? v).bind (SceneOptions.ofJson? .script) :=
  toOption_decoded ..

@[simp] theorem toOption_giveNode (n : SceneModule.Built Node) :
    (SceneModule.giveNode n).toOption = n.toOption.map Kind.node.encode :=
  toOption_map ..

@[simp] theorem number_value (function : String) (x : Number) :
    SceneModule.number function x.value = .ok x.toFloat := by
  cases x <;> rfl

/-- A call after an evaluation gives what is made of the part it decodes. -/
theorem toOption_then {α β γ : Type} {x : SceneModule.Built α} {decode : α → Option β}
    {b? : Option β} (hx : x.toOption.bind decode = b?) {f : α → SceneModule.Built Value}
    {g : β → γ} {encode : γ → Value}
    (hf : ∀ a, x = .ok a → (f a).toOption = ((decode a).map g).map encode) :
    (x >>= f).toOption = (b?.map g).map encode := by
  rw [← hx]
  cases x with
  | error m => rfl
  | ok a => exact hf a rfl

/-- A call after two evaluations gives what is made of the parts it decodes. -/
theorem toOption_then_then {α β γ δ ε : Type} {x : SceneModule.Built α}
    {y : SceneModule.Built β} {decode : α → Option γ} {decode' : β → Option δ}
    {c? : Option γ} {d? : Option δ} (hx : x.toOption.bind decode = c?)
    (hy : y.toOption.bind decode' = d?) {f : α → β → SceneModule.Built Value}
    {g : γ → δ → ε} {encode : ε → Value}
    (hf : ∀ a b, x = .ok a → (f a b).toOption =
      (decode a).bind fun c => (decode' b).map fun d => encode (g c d)) :
    (do f (← x) (← y) : SceneModule.Built Value).toOption =
      (do return g (← c?) (← d?) : Option ε).map encode := by
  rw [← hx, ← hy]
  cases x with
  | error m => rfl
  | ok a =>
    cases y with
    | error m => simp
    | ok b =>
      refine (hf a b rfl).trans ?_
      rw [toOption_ok, Option.bind_some, toOption_ok, Option.bind_some]
      cases decode a <;> cases decode' b <;> rfl

/-- The parts of an evaluated list are those of its first item and those of the others. -/
theorem bind_flatAll_cons {β : Type} {decode : Value → Option β} {x : SceneModule.Built Value}
    {xs : SceneModule.Built (List Value)} {first? rest? : Option (List β)}
    (hx : (x.toOption.bind fun v => (flat v).mapM decode) = first?)
    (hxs : (xs.toOption.bind fun vs => (flatAll vs).mapM decode) = rest?) :
    ((do return (← x) :: (← xs) : SceneModule.Built (List Value)).toOption.bind fun vs =>
      (flatAll vs).mapM decode) = do return (← first?) ++ (← rest?) := by
  rw [← hx, ← hxs]
  cases x with
  | error m => rfl
  | ok v =>
    cases xs with
    | error m => simp
    | ok vs => simp [flatAll, List.mapM_append]

/-- There are as many values as arguments. -/
theorem Args.length_values {k : Kind} {n : Nat} (args : Args k n) :
    ∀ vs ∈ args.values.toOption, vs.length = n := by
  intro vs hvs
  match args with
  | .nil =>
    cases hvs
    rfl
  | .one _ rest | .array _ rest =>
    simp only [Args.values, toOption_bind, toOption_pure, Option.mem_def,
      Option.bind_eq_some_iff] at hvs
    obtain ⟨v, -, ws, hws, ⟨⟩⟩ := hvs
    rw [List.length_cons, rest.length_values ws hws]

/-- `and` and `or` take the values of their arguments. -/
theorem takesList_values {k : Kind} {n : Nat} (hn : 1 ≤ n ∧ n ≤ maxVariadicArguments)
    {args : Args k n} {vs : List Value} (h : args.values = .ok vs) :
    SceneModule.takesList vs = true := by
  simpa [SceneModule.takesList, args.length_values vs (by simp [h])] using hn

mutual

/-- A call evaluates to what the builders make of it, as a value. -/
theorem Term.toOption_value {k : Kind} (t : Term k) :
    t.value.toOption = t.build?.map k.encode := by
  -- all arguments are evaluated before the first is decoded, and either failing fails the call
  match t with
  | .circle x y r | .rect x y w h => simp [Term.value, invoke, SceneModule.call, Term.build?]
  | .and hn args | .or hn args =>
    refine toOption_then args.bind_values fun vs hvs => ?_
    simp [invoke, SceneModule.call, takesList_values hn hvs]
  | .not t | .breakHere t | .freeze t | .modulate _ t | .smoothOuter _ t | .smoothInner _ t
  | .translate _ _ t =>
    exact toOption_then t.bind_value fun v _ => by simp [invoke, SceneModule.call]
  | .subtract a b =>
    exact toOption_then_then a.bind_value b.bind_value fun v w _ => by
      simp [invoke, SceneModule.call, Option.map_bind, Function.comp_def]
  | .shape t none | .singletonScene t =>
    exact toOption_then t.bind_value fun v _ => by
      simp [invoke, SceneModule.call, Kind.encode, Kind.toJson, Function.comp_def]
  | .shape t (some o) =>
    refine toOption_then_then t.bind_value (o.bind_value ofJson?_shapeFields) fun v w _ => ?_
    simp [invoke, SceneModule.call, Kind.encode, Kind.toJson]
  | .figure hn args =>
    refine toOption_then args.bind_values fun vs hvs => ?_
    have htakes : (vs.isEmpty || SceneModule.takesList vs) = true := by
      have hlen := args.length_values vs (by simp [hvs])
      cases vs with
      | nil => rfl
      | cons v vs =>
        rw [← hlen] at hn
        simpa [SceneModule.takesList] using hn
    simp [invoke, SceneModule.call, htakes, toOption_mapM, Kind.encode, Kind.toJson,
      Function.comp_def]
  | .scene figures none =>
    refine toOption_then figures.bind_values fun vs hvs => ?_
    obtain ⟨v, rfl⟩ := List.length_eq_one_iff.1 (figures.length_values vs (by simp [hvs]))
    simp [invoke, SceneModule.call, flatAll, toOption_mapM, Kind.encode, Kind.toJson,
      Function.comp_def]
  | .scene figures (some o) =>
    refine toOption_then_then figures.bind_values (o.bind_value ofJson?_sceneFields)
      fun vs w hvs => ?_
    obtain ⟨v, rfl⟩ := List.length_eq_one_iff.1 (figures.length_values vs (by simp [hvs]))
    simp [invoke, SceneModule.call, flatAll, toOption_mapM, Kind.encode, Kind.toJson]

/-- An argument decodes to what the builders take for it. -/
theorem Arg.bind_value {k : Kind} (a : Arg k) :
    a.value.toOption.bind k.decode? = a.build? := by
  match a with
  | .call t =>
    rw [Arg.value, t.toOption_value, Arg.build?]
    cases t.build? with
    | none => rfl
    | some b => exact k.decode?_encode b
  | .given v => rfl

/-- The parts of an argument decode to what the builders take for it in a list. -/
theorem Arg.bind_flat_value {k : Kind} (a : Arg k) :
    (a.value.toOption.bind fun v => (flat v).mapM k.decode?) = a.parts? := by
  match a with
  | .call t =>
    rw [Arg.value, t.toOption_value, Arg.parts?]
    cases t.build? with
    | none => rfl
    | some b => simp [Kind.flat_encode, Kind.decode?_encode]
  | .given v => rfl

/-- Arguments decode to what the builders take for them. -/
theorem Args.bind_values {k : Kind} {n : Nat} (args : Args k n) :
    (args.values.toOption.bind fun vs => (flatAll vs).mapM k.decode?) = args.build? := by
  match args with
  | .nil => rfl
  | .one a rest => exact bind_flatAll_cons a.bind_flat_value rest.bind_values
  | .array inner rest =>
    refine bind_flatAll_cons ?_ rest.bind_values
    rw [← inner.bind_values]
    simp [flat, Option.bind_map, Function.comp_def]

end

/-- Calls of the module mean the builders. If all arguments anywhere in a call decode, it
evaluates to the value of what the builders make of the same call, with each list from left to
right and without the arrays in it; if some argument does not, it fails. -/
theorem Term.means_builders {k : Kind} (t : Term k) :
    if t.decodes then ∃ b, t.build? = some b ∧ t.value = .ok (k.encode b)
    else ∃ m, t.value = .error m := by
  have hvalue := t.toOption_value
  have hdecodes := t.isSome_build?
  cases hb : t.build? with
  | none =>
    rw [hb] at hvalue hdecodes
    rw [← hdecodes, if_neg (by simp)]
    cases hv : t.value with
    | error m => exact ⟨m, rfl⟩
    | ok v => simp [hv] at hvalue
  | some b =>
    rw [hb] at hvalue hdecodes
    rw [← hdecodes, if_pos (by simp)]
    cases hv : t.value with
    | error m => simp [hv] at hvalue
    | ok v => exact ⟨b, rfl, by simpa [hv] using hvalue⟩

/-- A red square without a circle, in arrays around its figure, in millimetres. -/
theorem means_builders_scene :
    let square : Term .node := .rect (.int 0) (.int 0) (.int 2) (.float 2.5)
    let hole : Term .node := .circle (.int 1) (.int 1) (.float 0.5)
    let red : Setting ShapeOptions := .fields ⟨some ⟨255, 0, 0⟩, none⟩
    let shape : Term .shape := .shape (.call (.subtract (.call square) (.call hole))) (some red)
    let shapes : Args .shape 1 := .array (.one (.call shape) .nil) .nil
    let figure : Term .figure := .figure (by decide) shapes
    let t : Term .picture := .scene (.array (.array (.one (.call figure) .nil) .nil) .nil)
      (some (.fields ⟨some "mm", none⟩))
    t.decodes = true ∧
      t.value = .ok (Kind.picture.encode
        ⟨[⟨[⟨.and [.rect 0 0 2 2.5, .not (.circle 1 1 0.5)], ⟨255, 0, 0⟩, .filled⟩]⟩], "mm",
          true⟩) := by
  intro square hole red shape shapes figure t
  have hdecodes : t.decodes = true := rfl
  have h := t.means_builders
  rw [if_pos hdecodes] at h
  obtain ⟨b, hb, hvalue⟩ := h
  have hbuild : t.build? = some ⟨[⟨[⟨.and [.rect 0 0 2 2.5, .not (.circle 1 1 0.5)],
    ⟨255, 0, 0⟩, .filled⟩]⟩], "mm", true⟩ := rfl
  obtain rfl := Option.some.inj (hbuild.symm.trans hb)
  exact ⟨hdecodes, hvalue⟩

end LiveScene.Sandbox
