import LiveScene.Scene.Drawing

/-!
# Scenes built step by step

A step calls a builder by its name. Its arguments are numbers, options, or
references to what an earlier step built.
-/

namespace LiveScene.Scene

/-- What a builder makes. -/
inductive Built where
  | node (n : Node)
  | shape (s : Shape)
  | figure (f : Figure)
  | picture (p : Picture)
  deriving Repr

namespace Built

/-- The JSON form. -/
def value : Built → Json
  | node n => n.toJson.settled
  | shape s => s.toJson.settled
  | figure f => f.toJson.settled
  | picture p => p.toJson.settled

/-- Kind, depth and number of leaves of a tree, and nothing of other values. -/
def measures : Built → List (String × Json)
  | node n => [("kind", .str n.kind), ("depth", .nat n.depth), ("leaves", .nat n.leafCount)]
  | _ => []

/-- Whether it is a tree. -/
def isNode : Built → Bool
  | node _ => true
  | _ => false

end Built

/-- What a step comes to. -/
inductive Step where
  | built (b : Built)
  /-- There is no such builder. -/
  | unknown
  /-- The builder does not take these arguments. -/
  | refused
  deriving Repr

namespace Step

/-- The value a reference names. -/
def target? (done : List Step) (v : Json) : Option Built := do
  match v with
  | .obj fields =>
    match done[← (← fields.lookup "ref").size?]? with
    | some (built b) => some b
    | _ => none
  | _ => none

/-- The tree a reference names. -/
def node? (done : List Step) (v : Json) : Option Node := do
  match ← target? done v with
  | .node n => some n
  | _ => none

/-- The shape a reference names. -/
def shape? (done : List Step) (v : Json) : Option Shape := do
  match ← target? done v with
  | .shape s => some s
  | _ => none

/-- The figure a reference names. -/
def figure? (done : List Step) (v : Json) : Option Figure := do
  match ← target? done v with
  | .figure f => some f
  | _ => none

/-- The step of a builder that makes something of its arguments, or does not. -/
def ofOption : Option Built → Step
  | some b => built b
  | none => refused

/-- Call a builder. -/
def call (done : List Step) (name : String) (args : List Json) : Step :=
  let num (i : Nat) : Option Float := do (← args[i]?).float?
  let node (i : Nat) : Option Node := do node? done (← args[i]?)
  let nodes : Option (List Node) := args.mapM (node? done)
  let options {α : Type} (decode : Json → Option α) : Option (Option α) :=
    Json.optional decode args[1]?
  match name with
  | "circle" => ofOption do return .node (.circle (← num 0) (← num 1) (← num 2))
  | "rect" => ofOption do return .node (.rect (← num 0) (← num 1) (← num 2) (← num 3))
  | "and" => ofOption do return .node (.and (← nodes))
  | "or" => ofOption do return .node (.or (← nodes))
  | "not" => ofOption do return .node (.not (← node 0))
  | "subtract" => ofOption do return .node (.subtract (← node 0) (← node 1))
  | "modulate" => ofOption do return .node (.modulate (← num 0) (← node 1))
  | "translate" => ofOption do return .node (.translate (← num 0) (← num 1) (← node 2))
  | "break_here" => ofOption do return .node (.breakHere (← node 0))
  | "freeze" => ofOption do return .node (.freeze (← node 0))
  | "smooth_outer" => ofOption do return .node (.smoothOuter (← num 0) (← node 1))
  | "smooth_inner" => ofOption do return .node (.smoothInner (← num 0) (← node 1))
  | "shape" => ofOption do
    return .shape (Scene.shape (← node 0) (← options (ShapeOptions.ofJson? .wire)))
  | "figure" => ofOption do return .figure (Scene.figure (← args.mapM (shape? done)))
  | "scene" => ofOption do
    let figures ← (← args[0]?).list? (figure? done)
    return .picture (Scene.scene figures (← options (SceneOptions.ofJson? .wire)))
  | "singleton_scene" => ofOption do return .picture (singletonScene (← node 0))
  | _ => unknown

end Step

/-- Call builders one after the other. -/
def buildAll (calls : List (String × List Json)) : List Step :=
  calls.foldl (fun done (name, args) => done ++ [Step.call done name args]) []

end LiveScene.Scene
