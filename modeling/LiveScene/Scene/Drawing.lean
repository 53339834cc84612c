import LiveScene.Scene.Node

/-!
# Shapes, figures and scenes

A shape is a tree with a color and a way to be drawn, a figure is a group of
shapes, a scene is a list of figures with a unit. Options name only what
differs from the defaults: black, filled, pixels, simplified.

Values are decoded in one of two dialects. On the wire a record may be an
array of its fields. In values of a script it may not, but a color may have
more than three entries, of which the first three count.
-/

namespace LiveScene.Scene

/-- Where a value to be decoded comes from. -/
inductive Dialect where
  | wire
  | script
  deriving DecidableEq, Repr

/-- The slots of a record in a dialect. -/
def Dialect.record? (d : Dialect) (names : List String) (least : Nat) (v : Json) :
    Option Json.Slots :=
  match d with
  | .wire => v.record? names least
  | .script => v.object? names

/-- A color by its parts of red, green and blue. -/
structure Color where
  red : UInt8
  green : UInt8
  blue : UInt8
  deriving DecidableEq, Repr, Inhabited

namespace Color

/-- Black. -/
def black : Color := ⟨0, 0, 0⟩

/-- The JSON form: an array of three numbers. -/
def toJson (c : Color) : Json :=
  .arr [.nat c.red.toNat, .nat c.green.toNat, .nat c.blue.toNat]

/-- One part of a color. -/
def part? (v : Json) : Option UInt8 := (v.natUpTo? 255).map UInt8.ofNat

/-- Decode a color. -/
def ofJson? (d : Dialect) : Json → Option Color
  | .arr (r :: g :: b :: rest) =>
    if d = .wire ∧ rest ≠ [] then none
    else do return ⟨← part? r, ← part? g, ← part? b⟩
  | _ => none

end Color

/-- How an outline is stroked. -/
inductive LineStyle where
  | solid
  deriving DecidableEq, Repr, Inhabited

/-- Decode a line style. -/
def LineStyle.ofJson? (v : Json) : Option LineStyle :=
  match v.unitCase? with
  | some "solid" => some .solid
  | _ => none

/-- How a shape is drawn. -/
inductive DrawMode where
  | filled
  | line (style : LineStyle)
  deriving DecidableEq, Repr, Inhabited

namespace DrawMode

/-- The JSON form: `"filled"`, or an object with the line style. -/
def toJson : DrawMode → Json
  | filled => .str "filled"
  | line .solid => .obj [("line", .str "solid")]

/-- Decode a draw mode. -/
def ofJson? (v : Json) : Option DrawMode :=
  match v.case? with
  | some ("filled", none) => some filled
  | some ("filled", some .null) => some filled
  | some ("line", some style) => (LineStyle.ofJson? style).map line
  | _ => none

end DrawMode

/-- A tree with its presentation. -/
structure Shape where
  implicit : Node
  color : Color
  drawMode : DrawMode
  deriving Repr, Inhabited

namespace Shape

/-- The JSON form. -/
def toJson (s : Shape) : Json :=
  .obj [("implicit", s.implicit.toJson), ("color", s.color.toJson),
    ("draw_mode", s.drawMode.toJson)]

/-- Decode a shape. -/
def ofJson? (d : Dialect) (v : Json) : Option Shape := do
  let slot ← d.record? ["implicit", "color", "draw_mode"] 3 v
  return ⟨← Json.required Node.ofJson? (slot "implicit"),
    ← Json.required (Color.ofJson? d) (slot "color"),
    ← Json.required DrawMode.ofJson? (slot "draw_mode")⟩

end Shape

/-- Shapes that are drawn into one output figure. -/
structure Figure where
  shapes : List Shape
  deriving Repr, Inhabited

namespace Figure

/-- The JSON form. -/
def toJson (f : Figure) : Json := .obj [("shapes", .ofList Shape.toJson f.shapes)]

/-- Decode a figure. -/
def ofJson? (d : Dialect) (v : Json) : Option Figure := do
  let slot ← d.record? ["shapes"] 1 v
  return ⟨← Json.required (Json.list? (Shape.ofJson? d)) (slot "shapes")⟩

end Figure

/-- All that one render request draws. -/
structure Picture where
  figures : List Figure
  unit : String
  simplify : Bool
  deriving Repr, Inhabited

namespace Picture

/-- The JSON form. -/
def toJson (p : Picture) : Json :=
  .obj [("figures", .ofList Figure.toJson p.figures), ("unit", .str p.unit),
    ("simplify", .bool p.simplify)]

/-- Decode a scene. -/
def ofJson? (d : Dialect) (v : Json) : Option Picture := do
  let slot ← d.record? ["figures", "unit", "simplify"] 3 v
  return ⟨← Json.required (Json.list? (Figure.ofJson? d)) (slot "figures"),
    ← Json.required Json.str? (slot "unit"), ← Json.required Json.bool? (slot "simplify")⟩

end Picture

/-- Options of a shape; what is missing keeps its default. -/
structure ShapeOptions where
  color : Option Color
  drawMode : Option DrawMode
  deriving DecidableEq, Repr, Inhabited

namespace ShapeOptions

/-- No option set. -/
def none : ShapeOptions := ⟨.none, .none⟩

/-- The JSON form. -/
def toJson (o : ShapeOptions) : Json :=
  .obj [("color", .ofOption Color.toJson o.color),
    ("draw_mode", .ofOption DrawMode.toJson o.drawMode)]

/-- Decode options. -/
def ofJson? (d : Dialect) (v : Json) : Option ShapeOptions := do
  let slot ← d.record? ["color", "draw_mode"] 0 v
  return ⟨← Json.optional (Color.ofJson? d) (slot "color"),
    ← Json.optional DrawMode.ofJson? (slot "draw_mode")⟩

end ShapeOptions

/-- Options of a scene; what is missing keeps its default. -/
structure SceneOptions where
  unit : Option String
  simplify : Option Bool
  deriving DecidableEq, Repr, Inhabited

namespace SceneOptions

/-- No option set. -/
def none : SceneOptions := ⟨.none, .none⟩

/-- The JSON form. -/
def toJson (o : SceneOptions) : Json :=
  .obj [("unit", .ofOption .str o.unit), ("simplify", .ofOption .bool o.simplify)]

/-- Decode options. -/
def ofJson? (d : Dialect) (v : Json) : Option SceneOptions := do
  let slot ← d.record? ["unit", "simplify"] 0 v
  return ⟨← Json.optional Json.str? (slot "unit"), ← Json.optional Json.bool? (slot "simplify")⟩

end SceneOptions

/-- The unit of a scene that names none. -/
def defaultUnit : String := "px"

/-- A tree as a shape, black and filled unless the options say otherwise. -/
def shape (implicit : Node) (options : Option ShapeOptions) : Shape :=
  let o := options.getD .none
  ⟨implicit, o.color.getD .black, o.drawMode.getD .filled⟩

/-- Shapes as a figure. -/
def figure (shapes : List Shape) : Figure := ⟨shapes⟩

/-- Figures as a scene, in pixels and simplified unless the options say otherwise. -/
def scene (figures : List Figure) (options : Option SceneOptions) : Picture :=
  let o := options.getD .none
  ⟨figures, o.unit.getD defaultUnit, o.simplify.getD true⟩

/-- A scene of one figure that holds one shape with the defaults. -/
def singletonScene (implicit : Node) : Picture :=
  scene [figure [shape implicit none]] none

end LiveScene.Scene
