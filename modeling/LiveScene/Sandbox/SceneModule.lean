import LiveScene.Sandbox.Ambient
import LiveScene.Scene.Drawing
import LiveScene.Script.Machine

/-!
# The module of implicit scenes

The functions that scripts build scenes with. Nodes, shapes, figures and
scenes are object maps in scripts, with the fields of their JSON forms. What
a function gets is decoded and what it gives is written anew, so fields that
are not known do not survive, and all numbers of nodes are floats.

`and`, `or` and `figure` take up to sixteen arguments, and each of them may
be an array of any depth.
-/

namespace LiveScene.Sandbox

open Scene Script

mutual

/-- The JSON form of a script's value as the functions see it. A character is
no value of any field, which an array around its text is not either. -/
def fieldForm? : Value → Option Json
  | .char c => some (.arr [.str (String.singleton c)])
  | .array items => (fieldForms? items).map .arr
  | .map fields => (namedForms? fields).map .obj
  | v => v.toJson?

/-- The forms of all items or none. -/
def fieldForms? : List Value → Option (List Json)
  | [] => some []
  | v :: rest => do return (← fieldForm? v) :: (← fieldForms? rest)

/-- The forms of all entries or none. -/
def namedForms? : List (String × Value) → Option (List (String × Json))
  | [] => some []
  | (k, v) :: rest => do return (k, ← fieldForm? v) :: (← namedForms? rest)

end

mutual

/-- A value without the arrays around its parts: the items of an array, of
those of the arrays among them, and so on; else the value alone. -/
def flat : Value → List Value
  | .array items => flatAll items
  | v => [v]

/-- The parts of all values, one after the other. -/
def flatAll : List Value → List Value
  | [] => []
  | v :: rest => flat v ++ flatAll rest

end

namespace SceneModule

/-- The result of a function, or the text of its failure. -/
abbrev Built := Except String

/-- The failure of an argument that is not what the function takes. -/
def unexpected {α : Type} (function what : String) (v : Value) : Built α :=
  .error (function ++ ": expected " ++ what ++ ", got " ++ v.typeName)

/-- A number; whole ones count as floats. -/
def number (function : String) : Value → Built Float
  | .float x => .ok x
  | .int n => .ok (Float.ofInt n)
  | v => unexpected function "a number" v

/-- An argument that decodes. -/
def decoded {α : Type} (decode : Json → Option α) (function what : String) (v : Value) :
    Built α :=
  match (fieldForm? v).bind decode with
  | some a => .ok a
  | none => unexpected function what v

/-- A node. -/
def node (function : String) (v : Value) : Built Node :=
  decoded Node.ofJson? function "an implicit node" v

/-- The nodes of a list of arguments. -/
def nodes (function : String) (args : List Value) : Built (List Node) :=
  (flatAll args).mapM (node function)

/-- A shape. -/
def oneShape (v : Value) : Built Shape :=
  decoded (Shape.ofJson? .script) "figure" "a shape" v

/-- A figure. -/
def oneFigure (v : Value) : Built Figure :=
  decoded (Figure.ofJson? .script) "scene" "a figure" v

/-- Options of a shape. -/
def shapeOptions (v : Value) : Built ShapeOptions :=
  decoded (ShapeOptions.ofJson? .script) "shape" "a shape options map" v

/-- Options of a scene. -/
def sceneOptions (v : Value) : Built SceneOptions :=
  decoded (SceneOptions.ofJson? .script) "scene" "a scene options map" v

/-- A node as a script sees it. -/
def giveNode (n : Built Node) : Built Value := n.map fun n => .ofJson n.toJson

/-- Whether a list of arguments has a length that functions with lists take. -/
def takesList (args : List Value) : Bool := 1 ≤ args.length && args.length ≤ maxVariadicArguments

/-- What a function gives for its arguments; `none` where there is no such
function for so many. -/
def call (function : String) (args : List Value) : Option (Built Value) :=
  match function, args with
  | "circle", [x, y, r] => some <| giveNode do
    return .circle (← number function x) (← number function y) (← number function r)
  | "rect", [x, y, w, h] => some <| giveNode do
    return .rect (← number function x) (← number function y) (← number function w)
      (← number function h)
  | "and", args =>
    if takesList args then some (giveNode ((nodes function args).map .and)) else none
  | "or", args =>
    if takesList args then some (giveNode ((nodes function args).map .or)) else none
  | "not", [t] => some (giveNode ((node function t).map .not))
  | "subtract", [a, b] => some <| giveNode do
    return .subtract (← node function a) (← node function b)
  | "modulate", [h, t] => some <| giveNode do
    return .modulate (← number function h) (← node function t)
  | "translate", [dx, dy, t] => some <| giveNode do
    return .translate (← number function dx) (← number function dy) (← node function t)
  | "break_here", [t] => some (giveNode ((node function t).map .breakHere))
  | "freeze", [t] => some (giveNode ((node function t).map .freeze))
  | "smooth_outer", [h, t] => some <| giveNode do
    return .smoothOuter (← number function h) (← node function t)
  | "smooth_inner", [h, t] => some <| giveNode do
    return .smoothInner (← number function h) (← node function t)
  | "shape", [t] => some do
    return .ofJson (shape (← node function t) none).toJson
  | "shape", [t, o] => some do
    let t ← node function t
    return .ofJson (shape t (some (← shapeOptions o))).toJson
  | "figure", args =>
    if args.isEmpty || takesList args then some do
      return .ofJson (figure (← (flatAll args).mapM oneShape)).toJson
    else none
  | "scene", [fs] => some do
    return .ofJson (scene (← (flat fs).mapM oneFigure) none).toJson
  | "scene", [fs, o] => some do
    let fs ← (flat fs).mapM oneFigure
    return .ofJson (scene fs (some (← sceneOptions o))).toJson
  | "singleton_scene", [t] => some do
    return .ofJson (singletonScene (← node function t)).toJson
  | _, _ => none

end SceneModule

end LiveScene.Sandbox
