import LiveScene.Json

/-!
# Trees of implicit nodes

Circles and rectangles combined, moved, grown and marked. The builders at
the end give the two smoothings and the cut; the others are constructors.

`toJson` writes an object with the case under `kind`. `ofJson?` reads such
an object with its fields in any order and others beside them, or an array
of the case's name and its fields in declaration order.
-/

namespace LiveScene.Scene

/-- A node of the tree. -/
inductive Node where
  /-- Circle of radius `r` around (`x`, `y`). -/
  | circle (x y r : Float)
  /-- Rectangle with its top left corner at (`x`, `y`). -/
  | rect (x y w h : Float)
  /-- Intersection of all children. -/
  | and (children : List Node)
  /-- Union of all children. -/
  | or (children : List Node)
  /-- Complement. -/
  | not (target : Node)
  /-- The target moved by (`dx`, `dy`). -/
  | translate (dx dy : Float) (target : Node)
  /-- The target grown, or shrunk by a negative amount. -/
  | modulate (howMuch : Float) (target : Node)
  /-- A hint for the renderer where to stop evaluating. -/
  | breakHere (target : Node)
  /-- The target drawn once and taken as a fixed field. -/
  | freeze (target : Node)
  deriving Repr, Inhabited

namespace Node

/-- The name of the node's case. -/
def kind : Node → String
  | circle .. => "circle"
  | rect .. => "rect"
  | and _ => "and"
  | or _ => "or"
  | not _ => "not"
  | translate .. => "translate"
  | modulate .. => "modulate"
  | breakHere _ => "break"
  | freeze _ => "freeze"

mutual

/-- The depth of the tree; a leaf has depth 1. -/
def depth : Node → Nat
  | circle .. | rect .. => 1
  | and children | or children => 1 + maxDepth children
  | not t | translate _ _ t | modulate _ t | breakHere t | freeze t => 1 + depth t

/-- The greatest depth among nodes, 0 if there are none. -/
def maxDepth : List Node → Nat
  | [] => 0
  | n :: rest => max (depth n) (maxDepth rest)

end

mutual

/-- The number of circles and rectangles. -/
def leafCount : Node → Nat
  | circle .. | rect .. => 1
  | and children | or children => leafSum children
  | not t | translate _ _ t | modulate _ t | breakHere t | freeze t => leafCount t

/-- The number of circles and rectangles in all nodes. -/
def leafSum : List Node → Nat
  | [] => 0
  | n :: rest => leafCount n + leafSum rest

end

mutual

/-- The JSON form of a node. Floats stand as they are, finite or not. -/
def toJson : Node → Json
  | circle x y r =>
    .obj [("kind", .str "circle"), ("x", .float x), ("y", .float y), ("r", .float r)]
  | rect x y w h =>
    .obj [("kind", .str "rect"), ("x", .float x), ("y", .float y), ("w", .float w),
      ("h", .float h)]
  | and children => .obj [("kind", .str "and"), ("children", .arr (listToJson children))]
  | or children => .obj [("kind", .str "or"), ("children", .arr (listToJson children))]
  | not t => .obj [("kind", .str "not"), ("target", toJson t)]
  | translate dx dy t =>
    .obj [("kind", .str "translate"), ("dx", .float dx), ("dy", .float dy),
      ("target", toJson t)]
  | modulate howMuch t =>
    .obj [("kind", .str "modulate"), ("how_much", .float howMuch), ("target", toJson t)]
  | breakHere t => .obj [("kind", .str "break"), ("target", toJson t)]
  | freeze t => .obj [("kind", .str "freeze"), ("target", toJson t)]

/-- The JSON forms of nodes. -/
def listToJson : List Node → List Json
  | [] => []
  | n :: rest => toJson n :: listToJson rest

end

/-- The names of all fields a node may have. -/
def fieldNames : List String :=
  ["kind", "x", "y", "r", "w", "h", "children", "target", "dx", "dy", "how_much"]

/-- A node from the name of its case, its numbers, and what its target and
its children decode to. -/
def assemble? (kind : String) (number : String → Option Float) (target : Option Node)
    (children : Option (List Node)) : Option Node :=
  match kind with
  | "circle" => do return circle (← number "x") (← number "y") (← number "r")
  | "rect" => do return rect (← number "x") (← number "y") (← number "w") (← number "h")
  | "and" => children.map and
  | "or" => children.map or
  | "not" => target.map not
  | "translate" => do return translate (← number "dx") (← number "dy") (← target)
  | "modulate" => do return modulate (← number "how_much") (← target)
  | "break" => target.map breakHere
  | "freeze" => target.map freeze
  | _ => none

mutual

/-- Decode a node. -/
def ofJson? : Json → Option Node
  | .obj fields =>
    if fieldNames.any (Json.repeats · fields) then none
    else do
      let kind ← Json.required Json.str? (fields.lookup "kind")
      assemble? kind (fun n => Json.required Json.float? (fields.lookup n))
        (targetAmong? fields) (childrenAmong? fields)
  | .arr [.str kind, v] =>
    match kind with
    | "and" => (children? v).map and
    | "or" => (children? v).map or
    | "not" => (ofJson? v).map not
    | "break" => (ofJson? v).map breakHere
    | "freeze" => (ofJson? v).map freeze
    | _ => none
  | .arr [.str kind, a, v] =>
    match kind with
    | "modulate" => do return modulate (← a.float?) (← ofJson? v)
    | _ => none
  | .arr [.str kind, a, b, v] =>
    match kind with
    | "circle" => do return circle (← a.float?) (← b.float?) (← v.float?)
    | "translate" => do return translate (← a.float?) (← b.float?) (← ofJson? v)
    | _ => none
  | .arr [.str kind, a, b, c, d] =>
    match kind with
    | "rect" => do return rect (← a.float?) (← b.float?) (← c.float?) (← d.float?)
    | _ => none
  | _ => none

/-- The node under `target`. -/
def targetAmong? : List (String × Json) → Option Node
  | [] => none
  | (name, v) :: rest => if name = "target" then ofJson? v else targetAmong? rest

/-- The nodes under `children`. -/
def childrenAmong? : List (String × Json) → Option (List Node)
  | [] => none
  | (name, v) :: rest => if name = "children" then children? v else childrenAmong? rest

/-- The nodes of an array. -/
def children? : Json → Option (List Node)
  | .arr items => items? items
  | _ => none

/-- Decode all nodes or none. -/
def items? : List Json → Option (List Node)
  | [] => some []
  | v :: rest => do return (← ofJson? v) :: (← items? rest)

end

/-- `a` with `b` cut out of it. -/
def subtract (a b : Node) : Node := and [a, not b]

/-- Round off convex corners: grow, freeze, shrink back. -/
def smoothOuter (howMuch : Float) (target : Node) : Node :=
  modulate (-howMuch) (freeze (modulate howMuch target))

/-- Round off concave corners: shrink, freeze, grow back. -/
def smoothInner (howMuch : Float) (target : Node) : Node :=
  modulate howMuch (freeze (modulate (-howMuch) target))

end Node

end LiveScene.Scene
