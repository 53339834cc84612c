import LiveScene.Scene.Drawing
import LiveScene.Proofs.Json.Forms

/-!
# Scenes on the wire

Every value of a scene reads back from its form whatever carries it, as long
as the carrier keeps its numbers: `Node.readsBack` and its like, one for each
type and for both dialects. The wire keeps the finite numbers. A value that
was decoded from the wire has no others, in whatever spelling it came
(`Node.ofJson?_ensures` and its like), so it may be sent on.

`survive_wire` puts the two together.
-/

namespace LiveScene.Scene

open Json

/-! ## Numbers -/

namespace Node

mutual

/-- The numbers of a tree. -/
def numbers : Node → List Float
  | circle x y r => [x, y, r]
  | rect x y w h => [x, y, w, h]
  | and children | or children => numbersOfAll children
  | not t | breakHere t | freeze t => numbers t
  | translate dx dy t => dx :: dy :: numbers t
  | modulate howMuch t => howMuch :: numbers t

/-- The numbers of all trees. -/
def numbersOfAll : List Node → List Float
  | [] => []
  | n :: rest => numbers n ++ numbersOfAll rest

end

/-- What holds of the numbers of all trees holds of those of each. -/
theorem all_numbersOfAll (p : Float → Bool) (ns : List Node) :
    (numbersOfAll ns).all p = ns.all (·.numbers.all p) := by
  induction ns with
  | nil => rfl
  | cons n rest ih => rw [numbersOfAll, List.all_append, ih, List.all_cons]

end Node

/-- The numbers of a shape. -/
def Shape.numbers (s : Shape) : List Float := s.implicit.numbers

/-- The numbers of a figure. -/
def Figure.numbers (f : Figure) : List Float := f.shapes.flatMap Shape.numbers

/-- The numbers of a scene. -/
def Picture.numbers (p : Picture) : List Float := p.figures.flatMap Figure.numbers

/-! ## Decoding by fields -/

namespace Node

theorem listToJson_eq_map (ns : List Node) : listToJson ns = ns.map toJson := by
  induction ns with
  | nil => rfl
  | cons n rest ih => rw [listToJson, List.map_cons, ih]

theorem items?_eq_mapM (items : List Json) : items? items = items.mapM ofJson? := by
  induction items with
  | nil => rfl
  | cons v rest ih => rw [items?, List.mapM_cons, ih]

/-- Children are decoded as a list of nodes. -/
theorem children?_eq_list? : children? = Json.list? ofJson? := by
  funext v
  cases v with
  | arr items => exact items?_eq_mapM items
  | _ => rfl

/-- A target is decoded from its field. -/
theorem targetAmong?_eq (fields : List (String × Json)) :
    targetAmong? fields = Json.required ofJson? (fields.lookup "target") := by
  induction fields with
  | nil => rfl
  | cons f rest ih =>
    obtain ⟨k, v⟩ := f
    rw [targetAmong?, List.lookup_cons, ih]
    by_cases h : k = "target"
    · simp [h, Json.required]
    · simp [h, beq_eq_false_iff_ne.2 (Ne.symm h)]

/-- So are children. -/
theorem childrenAmong?_eq (fields : List (String × Json)) :
    childrenAmong? fields = Json.required (Json.list? ofJson?) (fields.lookup "children") := by
  induction fields with
  | nil => rfl
  | cons f rest ih =>
    obtain ⟨k, v⟩ := f
    rw [childrenAmong?, List.lookup_cons, ih, children?_eq_list?]
    by_cases h : k = "children"
    · simp [h, Json.required]
    · simp [h, beq_eq_false_iff_ne.2 (Ne.symm h)]

end Node

section Carried

variable {carry : Json → Json} {keeps : Float → Bool} {fields : List (String × Json)}

/-- A carried object decodes as a node by the fields it was written with. -/
theorem Node.ofJson?_carry (hc : Carrier carry keeps) (h : (fields.map Prod.fst).Nodup) :
    Node.ofJson? (carry (.obj fields)) =
      (Json.required Json.str? ((fields.lookup "kind").map carry)).bind fun kind =>
        Node.assemble? kind (fun n => Json.required Json.float? ((fields.lookup n).map carry))
          (Json.required Node.ofJson? ((fields.lookup "target").map carry))
          (Json.required (Json.list? Node.ofJson?) ((fields.lookup "children").map carry)) := by
  obtain ⟨fields', hobj, hnames, hlookup⟩ := hc.obj_lookup h
  have hany : Node.fieldNames.any (Json.repeats · fields') = false := by
    simp [Json.repeats_eq_false hnames]
  rw [hobj, Node.ofJson?, hany, Node.targetAmong?_eq, Node.childrenAmong?_eq]
  simp only [hlookup]
  rfl

/-- The fields of a record are found whatever carries it, in both dialects. -/
theorem Dialect.record?_carry (d : Dialect) (hc : Carrier carry keeps)
    (h : (fields.map Prod.fst).Nodup) (names : List String) (least : Nat) :
    d.record? names least (carry (.obj fields)) =
      some fun n => (fields.lookup n).map carry := by
  cases d with
  | wire => exact hc.record? h names least
  | script => exact hc.object? h names

/-! ## Reading back -/

mutual

/-- A tree reads back where its numbers are kept. -/
theorem Node.readsBack (hc : Carrier carry keeps) (n : Node) :
    Node.ofJson? (carry n.toJson) = if n.numbers.all keeps then some n else none := by
  match n with
  | .circle .. | .rect .. =>
    simp [Node.toJson, Node.ofJson?_carry hc, Node.assemble?, Json.required, Json.str?, hc.str,
      hc.float, List.lookup_cons, ite_some_bind, Node.numbers, ite_and]
  | .and children | .or children =>
    have ih := Node.allReadBack hc children
    simp [Node.toJson, Node.ofJson?_carry hc, Node.assemble?, Json.required, Json.str?, hc.str,
      hc.arr, List.lookup_cons, Json.list?, Node.listToJson_eq_map, ih, Node.numbers,
      Node.all_numbersOfAll]
  | .not t | .breakHere t | .freeze t =>
    have ih := Node.readsBack hc t
    simp [Node.toJson, Node.ofJson?_carry hc, Node.assemble?, Json.required, Json.str?, hc.str,
      List.lookup_cons, ih, Node.numbers]
  | .translate _ _ t | .modulate _ t =>
    have ih := Node.readsBack hc t
    simp [Node.toJson, Node.ofJson?_carry hc, Node.assemble?, Json.required, Json.str?, hc.str,
      hc.float, List.lookup_cons, ih, ite_some_bind, Node.numbers, ite_and]

/-- `Node.readsBack` for all children. -/
theorem Node.allReadBack (hc : Carrier carry keeps) (ns : List Node) :
    (ns.map (carry ∘ Node.toJson)).mapM Node.ofJson? =
      if ns.all (·.numbers.all keeps) then some ns else none := by
  match ns with
  | [] => rfl
  | n :: rest =>
    have ihn := Node.readsBack hc n
    have ih := Node.allReadBack hc rest
    simp [List.mapM_cons, ihn, ih, ite_some_bind, ite_and]

end

/-- Colors read back. -/
theorem Color.readsBack (hc : Carrier carry keeps) (d : Dialect) :
    ReadsBack carry Color.toJson (Color.ofJson? d) fun _ => true := by
  intro c
  have part (n : UInt8) : Color.part? (carry (.nat n.toNat)) = some n := by
    have hn : n.toNat ≤ 255 := by have := n.toNat_lt; omega
    rw [hc.byte hn, Color.part?]
    simp [Json.nat, Json.natUpTo?, hn]
  simp [Color.toJson, hc.arr, Color.ofJson?, part]

theorem Color.carry_ne_null (hc : Carrier carry keeps) (c : Color) : carry c.toJson ≠ .null := by
  simp [Color.toJson, hc.arr]

/-- So do modes of drawing. -/
theorem DrawMode.readsBack (hc : Carrier carry keeps) :
    ReadsBack carry DrawMode.toJson DrawMode.ofJson? fun _ => true := by
  intro m
  rcases m with _ | ⟨⟨⟩⟩
  · rw [DrawMode.toJson, hc.str]
    rfl
  · rw [DrawMode.toJson, DrawMode.ofJson?, hc.case?, hc.str]
    rfl

theorem DrawMode.carry_ne_null (hc : Carrier carry keeps) (m : DrawMode) :
    carry m.toJson ≠ .null := by
  intro h
  simpa [h, DrawMode.ofJson?, Json.case?] using DrawMode.readsBack hc m

/-- A shape reads back if its numbers are kept. -/
theorem Shape.readsBack (hc : Carrier carry keeps) (d : Dialect) :
    ReadsBack carry Shape.toJson (Shape.ofJson? d) (·.numbers.all keeps) := by
  intro s
  have color := Color.readsBack hc d s.color
  have drawMode := DrawMode.readsBack hc s.drawMode
  simp [Shape.toJson, Shape.ofJson?, d.record?_carry hc, List.lookup_cons, Json.required,
    Node.readsBack hc, color, drawMode, ite_some_bind, Shape.numbers]

/-- So does a figure. -/
theorem Figure.readsBack (hc : Carrier carry keeps) (d : Dialect) :
    ReadsBack carry Figure.toJson (Figure.ofJson? d) (·.numbers.all keeps) := by
  intro f
  have shapes := (Shape.readsBack hc d).list? hc f.shapes
  simp [Figure.toJson, Figure.ofJson?, d.record?_carry hc, List.lookup_cons, Json.required,
    shapes, ite_some_bind, Figure.numbers]

/-- So does a scene. -/
theorem Picture.readsBack (hc : Carrier carry keeps) (d : Dialect) :
    ReadsBack carry Picture.toJson (Picture.ofJson? d) (·.numbers.all keeps) := by
  intro p
  have figures := (Figure.readsBack hc d).list? hc p.figures
  simp [Picture.toJson, Picture.ofJson?, d.record?_carry hc, List.lookup_cons, Json.required,
    figures, hc.str, hc.bool, Json.str?, Json.bool?, ite_some_bind, Picture.numbers]

/-- Options of a shape read back. -/
theorem ShapeOptions.readsBack (hc : Carrier carry keeps) (d : Dialect) :
    ReadsBack carry ShapeOptions.toJson (ShapeOptions.ofJson? d) fun _ => true := by
  intro o
  have color := (Color.readsBack hc d).optional hc (Color.carry_ne_null hc) o.color
  have drawMode := (DrawMode.readsBack hc).optional hc (DrawMode.carry_ne_null hc) o.drawMode
  simp [ShapeOptions.toJson, ShapeOptions.ofJson?, d.record?_carry hc, List.lookup_cons, color,
    drawMode]

/-- So do options of a scene. -/
theorem SceneOptions.readsBack (hc : Carrier carry keeps) (d : Dialect) :
    ReadsBack carry SceneOptions.toJson (SceneOptions.ofJson? d) fun _ => true := by
  intro o
  have unit := (ReadsBack.str hc).optional hc (by simp [hc.str]) o.unit
  have simplify := (ReadsBack.bool hc).optional hc (by simp [hc.bool]) o.simplify
  simp [SceneOptions.toJson, SceneOptions.ofJson?, d.record?_carry hc, List.lookup_cons, unit,
    simplify]

end Carried

/-! ## Numbers of decoded values -/

namespace Node

/-- Whether all numbers of a tree are finite. -/
def finite (n : Node) : Bool := n.numbers.all Float.isFinite

/-- A node is as finite as the numbers and nodes it is put together from. -/
theorem assemble?_finite {kind : String} {number : String → Option Float}
    {target : Option Node} {children : Option (List Node)} {n : Node}
    (hnumber : ∀ name, ∀ x ∈ number name, x.isFinite = true)
    (htarget : ∀ t ∈ target, t.finite = true)
    (hchildren : ∀ ns ∈ children, ∀ t ∈ ns, t.finite = true)
    (h : assemble? kind number target children = some n) : n.finite = true := by
  simp only [Option.mem_def] at hnumber htarget hchildren
  unfold assemble? at h
  split at h <;> simp [Option.bind_eq_some_iff] at h
  · obtain ⟨x, hx, y, hy, r, hr, rfl⟩ := h
    simp [finite, numbers, hnumber _ _ hx, hnumber _ _ hy, hnumber _ _ hr]
  · obtain ⟨x, hx, y, hy, w, hw, l, hl, rfl⟩ := h
    simp [finite, numbers, hnumber _ _ hx, hnumber _ _ hy, hnumber _ _ hw, hnumber _ _ hl]
  · obtain ⟨ns, hns, rfl⟩ := h
    simpa [finite, numbers, all_numbersOfAll] using hchildren ns hns
  · obtain ⟨ns, hns, rfl⟩ := h
    simpa [finite, numbers, all_numbersOfAll] using hchildren ns hns
  · obtain ⟨t, ht, rfl⟩ := h
    exact htarget t ht
  · obtain ⟨dx, hx, dy, hy, t, ht, rfl⟩ := h
    simpa [finite, numbers, hnumber _ _ hx, hnumber _ _ hy] using htarget t ht
  · obtain ⟨x, hx, t, ht, rfl⟩ := h
    simpa [finite, numbers, hnumber _ _ hx] using htarget t ht
  · obtain ⟨t, ht, rfl⟩ := h
    exact htarget t ht
  · obtain ⟨t, ht, rfl⟩ := h
    exact htarget t ht

mutual

/-- A decoded node is finite, in whatever spelling it came. -/
theorem ofJson?_finite (v : Json) (hv : v.numeric = true) (n : Node) (h : ofJson? v = some n) :
    n.finite = true := by
  -- an object, or an array of the kind and as many fields as the kind has
  unfold ofJson? at h
  split at h
  case h_1 fields =>
    rw [numeric_obj] at hv
    split_ifs at h
    obtain ⟨kind, -, h⟩ := Option.bind_eq_some_iff.1 h
    refine assemble?_finite (fun name x hx => ?_) (targetAmong?_finite fields hv)
      (childrenAmong?_finite fields hv) h
    exact float?_ensures.required (fun w hw => hv _ (mem_of_lookup hw)) hx
  case h_2 kind w =>
    simp only [numeric_arr, List.forall_mem_cons] at hv
    have hw : w.numeric = true := hv.2.1
    split at h <;> simp at h <;> obtain ⟨a, ha, rfl⟩ := h
    · simpa [finite, numbers, all_numbersOfAll] using children?_finite w hw a ha
    · simpa [finite, numbers, all_numbersOfAll] using children?_finite w hw a ha
    all_goals exact ofJson?_finite w hw a ha
  case h_3 kind a w =>
    simp only [numeric_arr, List.forall_mem_cons] at hv
    split at h <;> simp [Option.bind_eq_some_iff] at h
    obtain ⟨x, hx, t, ht, rfl⟩ := h
    simpa [finite, numbers, float?_ensures hv.2.1 hx] using ofJson?_finite w hv.2.2.1 t ht
  case h_4 kind a b w =>
    simp only [numeric_arr, List.forall_mem_cons] at hv
    split at h <;> simp [Option.bind_eq_some_iff] at h
    · obtain ⟨x, hx, y, hy, r, hr, rfl⟩ := h
      simp [finite, numbers, float?_ensures hv.2.1 hx, float?_ensures hv.2.2.1 hy,
        float?_ensures hv.2.2.2.1 hr]
    · obtain ⟨x, hx, y, hy, t, ht, rfl⟩ := h
      simpa [finite, numbers, float?_ensures hv.2.1 hx, float?_ensures hv.2.2.1 hy]
        using ofJson?_finite w hv.2.2.2.1 t ht
  case h_5 kind a b c d =>
    simp only [numeric_arr, List.forall_mem_cons] at hv
    split at h <;> simp [Option.bind_eq_some_iff] at h
    obtain ⟨x, hx, y, hy, w, hw, l, hl, rfl⟩ := h
    simp [finite, numbers, float?_ensures hv.2.1 hx, float?_ensures hv.2.2.1 hy,
      float?_ensures hv.2.2.2.1 hw, float?_ensures hv.2.2.2.2.1 hl]
  case h_6 => cases h

/-- `ofJson?_finite` for a target. -/
theorem targetAmong?_finite (fields : List (String × Json))
    (hf : ∀ f ∈ fields, f.2.numeric = true) (n : Node) (h : targetAmong? fields = some n) :
    n.finite = true := by
  match fields with
  | [] => cases h
  | (name, v) :: rest =>
    rw [List.forall_mem_cons] at hf
    rw [targetAmong?] at h
    split_ifs at h
    · exact ofJson?_finite v hf.1 n h
    · exact targetAmong?_finite rest hf.2 n h

/-- `ofJson?_finite` for children. -/
theorem childrenAmong?_finite (fields : List (String × Json))
    (hf : ∀ f ∈ fields, f.2.numeric = true) (ns : List Node)
    (h : childrenAmong? fields = some ns) : ∀ n ∈ ns, n.finite = true := by
  match fields with
  | [] => cases h
  | (name, v) :: rest =>
    rw [List.forall_mem_cons] at hf
    rw [childrenAmong?] at h
    split_ifs at h
    · exact children?_finite v hf.1 ns h
    · exact childrenAmong?_finite rest hf.2 ns h

/-- `ofJson?_finite` for the nodes of an array. -/
theorem children?_finite (v : Json) (hv : v.numeric = true) (ns : List Node)
    (h : children? v = some ns) : ∀ n ∈ ns, n.finite = true := by
  match v with
  | .arr items => exact items?_finite items (numeric_arr.1 hv) ns h
  | .null | .bool _ | .int _ | .float _ | .str _ | .obj _ => cases h

/-- `ofJson?_finite` for all items. -/
theorem items?_finite (items : List Json) (hitems : ∀ v ∈ items, v.numeric = true)
    (ns : List Node) (h : items? items = some ns) : ∀ n ∈ ns, n.finite = true := by
  match items with
  | [] =>
    cases h
    simp
  | v :: rest =>
    rw [List.forall_mem_cons] at hitems
    simp only [items?, Option.bind_eq_bind, Option.bind_eq_some_iff] at h
    obtain ⟨n, hn, ns', hns, ⟨⟩⟩ := h
    rw [List.forall_mem_cons]
    exact ⟨ofJson?_finite v hitems.1 n hn, items?_finite rest hitems.2 ns' hns⟩

end

end Node

/-- The numbers of a decoded node are finite. -/
theorem Node.ofJson?_ensures : Ensures Node.ofJson? (·.finite = true) :=
  fun v n hv h => Node.ofJson?_finite v hv n h

/-- What a decoder finds in the slots of a record is a JSON value, in both dialects. -/
theorem Dialect.numeric_of_record? {d : Dialect} {names : List String} {least : Nat} {v : Json}
    {slot : Slots} (hv : v.numeric = true) (h : d.record? names least v = some slot)
    (name : String) : ∀ w ∈ slot name, w.numeric = true := by
  intro w hw
  cases d with
  | wire => exact Json.numeric_of_record? hv h hw
  | script => exact Json.numeric_of_object? hv h hw

/-- The numbers of a decoded shape are finite. -/
theorem Shape.ofJson?_ensures (d : Dialect) :
    Ensures (Shape.ofJson? d) (·.numbers.all Float.isFinite = true) := by
  intro v s hv h
  simp only [Shape.ofJson?, Option.bind_eq_bind, Option.bind_eq_some_iff] at h
  obtain ⟨slot, hslot, n, hn, color, -, drawMode, -, ⟨⟩⟩ := h
  exact Node.ofJson?_ensures.required (Dialect.numeric_of_record? hv hslot _) hn

/-- So are those of a decoded figure. -/
theorem Figure.ofJson?_ensures (d : Dialect) :
    Ensures (Figure.ofJson? d) (·.numbers.all Float.isFinite = true) := by
  intro v f hv h
  simp only [Figure.ofJson?, Option.bind_eq_bind, Option.bind_eq_some_iff] at h
  obtain ⟨slot, hslot, shapes, hshapes, ⟨⟩⟩ := h
  have := (Shape.ofJson?_ensures d).list?.required (Dialect.numeric_of_record? hv hslot _) hshapes
  simpa [Figure.numbers] using this

/-- So are those of a decoded scene. -/
theorem Picture.ofJson?_ensures (d : Dialect) :
    Ensures (Picture.ofJson? d) (·.numbers.all Float.isFinite = true) := by
  intro v p hv h
  simp only [Picture.ofJson?, Option.bind_eq_bind, Option.bind_eq_some_iff] at h
  obtain ⟨slot, hslot, figures, hfigures, unit, -, simplify, -, ⟨⟩⟩ := h
  have := (Figure.ofJson?_ensures d).list?.required (Dialect.numeric_of_record? hv hslot _) hfigures
  simpa [Picture.numbers] using this

/-! ## Over the wire -/

/-- What holds of a type whose values are sent over the wire. -/
structure Survives {α : Type} (encode : α → Json) (decode : Json → Option α)
    (numbers : α → List Float) : Prop where
  /-- The form of a value decodes exactly if its numbers are finite. -/
  decodes (a : α) :
    (decode (encode a).settled).isSome ↔ ∀ x ∈ numbers a, x.isFinite = true
  /-- What the form of a value decodes to is the value. -/
  same {a b : α} : decode (encode a).settled = some b → b = a
  /-- What was decoded comes back when it is sent on. -/
  again {v : Json} {a : α} : v.numeric = true → decode v = some a →
    decode (encode a).settled = some a

/-- A form survives the wire if it reads back with finite numbers and is only decoded to such.
-/
theorem Survives.of_readsBack {α : Type} {encode : α → Json} {decode : Json → Option α}
    {numbers : α → List Float}
    (back : ReadsBack settled encode decode fun a => (numbers a).all Float.isFinite)
    (sound : Ensures decode fun a => (numbers a).all Float.isFinite = true) :
    Survives encode decode numbers where
  decodes a := by simp [back a]
  same {a b} h := by
    rw [back a] at h
    split_ifs at h
    exact (Option.some.inj h).symm
  again {v a} hv h := by simp [back a, sound hv h]

/-- Trees, shapes, figures, scenes and options survive the wire: a form decodes if all numbers
in it are finite, to the value it was made of, and what was decoded once decodes again. -/
theorem survive_wire :
    Survives Node.toJson Node.ofJson? Node.numbers ∧
    Survives Shape.toJson (Shape.ofJson? .wire) Shape.numbers ∧
    Survives Figure.toJson (Figure.ofJson? .wire) Figure.numbers ∧
    Survives Picture.toJson (Picture.ofJson? .wire) Picture.numbers ∧
    Survives ShapeOptions.toJson (ShapeOptions.ofJson? .wire) (fun _ => []) ∧
    Survives SceneOptions.toJson (SceneOptions.ofJson? .wire) (fun _ => []) :=
  ⟨.of_readsBack (Node.readsBack carrier_settled) Node.ofJson?_ensures,
    .of_readsBack (Shape.readsBack carrier_settled _) (Shape.ofJson?_ensures _),
    .of_readsBack (Figure.readsBack carrier_settled _) (Figure.ofJson?_ensures _),
    .of_readsBack (Picture.readsBack carrier_settled _) (Picture.ofJson?_ensures _),
    .of_readsBack (ShapeOptions.readsBack carrier_settled _) (fun _ _ _ _ => rfl),
    .of_readsBack (SceneOptions.readsBack carrier_settled _) (fun _ _ _ _ => rfl)⟩

/-- A tree in another spelling, an array around an object with a field too many and whole
numbers, is sent on. -/
theorem respelled_survives :
    numeric (.arr [.str "not", .obj [("r", .int 3), ("kind", .str "circle"), ("y", .int 2),
      ("x", .int 1), ("z", .null)]]) = true ∧
    Node.ofJson? (.arr [.str "not", .obj [("r", .int 3), ("kind", .str "circle"), ("y", .int 2),
      ("x", .int 1), ("z", .null)]]) = some (.not (.circle 1 2 3)) ∧
    Node.ofJson? (Node.not (.circle 1 2 3)).toJson.settled = some (.not (.circle 1 2 3)) :=
  ⟨rfl, rfl, survive_wire.1.again (v := .arr [.str "not", .obj [("r", .int 3),
    ("kind", .str "circle"), ("y", .int 2), ("x", .int 1), ("z", .null)]]) rfl rfl⟩

end LiveScene.Scene
