import LiveScene.Proofs.Script.References
import LiveScene.Script.Access

/-!
# What values refer to

A value refers to what the functions in it do. No operator and no built-in
function makes up a function: what they give refers to no more than what they
are given (`builtin_keeps`, `binaryOp_keeps`).
-/

namespace LiveScene.Script

mutual

/-- What the functions in a value refer to. -/
def Value.references : Value → List Reference
  | .array items => itemReferences items
  | .map fields => entryReferences fields
  | .closure _ _ _ body => body.references
  | .unit | .bool _ | .int _ | .float _ | .char _ | .str _ | .range .. | .sealed _ => []

/-- What the functions in items refer to. -/
def itemReferences : List Value → List Reference
  | [] => []
  | v :: rest => v.references ++ itemReferences rest

/-- What the functions in entries refer to. -/
def entryReferences : List (String × Value) → List Reference
  | [] => []
  | (_, v) :: rest => v.references ++ entryReferences rest

end

variable {ok : Reference → Prop}

/-- The functions in a value keep to what is given. -/
def Value.Keeps (ok : Reference → Prop) (v : Value) : Prop := Script.Keeps ok v.references

/-- All entries do. -/
def KeepsEntries (ok : Reference → Prop) (fields : List (String × Value)) : Prop :=
  ∀ f ∈ fields, f.2.Keeps ok

/-- All items do. -/
def KeepsItems (ok : Reference → Prop) (items : List Value) : Prop := ∀ v ∈ items, v.Keeps ok

namespace Value

@[simp] theorem keeps_unit : Keeps ok .unit := keeps_nil
@[simp] theorem keeps_bool {b : Bool} : Keeps ok (.bool b) := keeps_nil
@[simp] theorem keeps_int {n : Int} : Keeps ok (.int n) := keeps_nil
@[simp] theorem keeps_float {x : Float} : Keeps ok (.float x) := keeps_nil
@[simp] theorem keeps_char {c : Char} : Keeps ok (.char c) := keeps_nil
@[simp] theorem keeps_str {s : String} : Keeps ok (.str s) := keeps_nil
@[simp] theorem keeps_range {lo hi : Int} {closed : Bool} : Keeps ok (.range lo hi closed) :=
  keeps_nil
@[simp] theorem keeps_sealed {type : String} : Keeps ok (.sealed type) := keeps_nil

/-- An array keeps to what is given if its items do. -/
@[simp] theorem keeps_array {items : List Value} :
    Keeps ok (.array items) ↔ KeepsItems ok items := by
  rw [Keeps, references]
  induction items with
  | nil => simp [itemReferences, KeepsItems]
  | cons v items ih =>
    rw [itemReferences, keeps_append, ih]
    exact (List.forall_mem_cons (p := Value.Keeps ok)).symm

/-- A map keeps to what is given if its fields do. -/
@[simp] theorem keeps_map {fields : List (String × Value)} :
    Keeps ok (.map fields) ↔ KeepsEntries ok fields := by
  rw [Keeps, references]
  induction fields with
  | nil => simp [entryReferences, KeepsEntries]
  | cons f fields ih =>
    obtain ⟨k, v⟩ := f
    rw [entryReferences, keeps_append, ih]
    exact (List.forall_mem_cons (p := fun f => f.2.Keeps ok) (a := (k, v))).symm

@[simp] theorem keeps_ofLiteral {l : Literal} : Keeps ok (ofLiteral l) := by
  cases l <;> exact keeps_nil

end Value

/-! ## Items and entries -/

/-- Where there is no value, every value keeps to what is given. -/
theorem keeps_none {v : Value} (h : v ∈ (none : Option Value)) : v.Keeps ok := by cases h

@[simp] theorem Value.keeps_getD {o : Option Value} :
    (o.getD .unit).Keeps ok ↔ ∀ v ∈ o, v.Keeps ok := by
  cases o <;> simp

/-- Fewer items, or the same in another order. -/
theorem KeepsItems.subset {items more : List Value} (h : KeepsItems ok items) (hs : more ⊆ items) :
    KeepsItems ok more := fun v hv => h v (hs hv)

@[simp] theorem keepsItems_nil : KeepsItems ok [] := List.forall_mem_nil _

@[simp] theorem keepsItems_cons {v : Value} {items : List Value} :
    KeepsItems ok (v :: items) ↔ v.Keeps ok ∧ KeepsItems ok items :=
  List.forall_mem_cons

@[simp] theorem keepsItems_append {items more : List Value} :
    KeepsItems ok (items ++ more) ↔ KeepsItems ok items ∧ KeepsItems ok more :=
  List.forall_mem_append

@[simp] theorem keepsEntries_nil : KeepsEntries ok [] := List.forall_mem_nil _

@[simp] theorem keepsEntries_cons {f : String × Value} {fields : List (String × Value)} :
    KeepsEntries ok (f :: fields) ↔ f.2.Keeps ok ∧ KeepsEntries ok fields :=
  List.forall_mem_cons

@[simp] theorem keepsEntries_append {fields more : List (String × Value)} :
    KeepsEntries ok (fields ++ more) ↔ KeepsEntries ok fields ∧ KeepsEntries ok more :=
  List.forall_mem_append

/-- Setting an item leaves the others. -/
theorem KeepsItems.set {items : List Value} (h : KeepsItems ok items) (i : Nat) {v : Value}
    (hv : v.Keeps ok) : KeepsItems ok (items.set i v) := by
  intro u hu
  rcases List.mem_or_eq_of_mem_set hu with hu | rfl
  · exact h u hu
  · exact hv

/-- A field that is found is one of the map. -/
theorem KeepsEntries.lookup {fields : List (String × Value)} (h : KeepsEntries ok fields)
    {k : String} {v : Value} (hv : fields.lookup k = some v) : v.Keeps ok := by
  obtain ⟨l₁, l₂, rfl, -⟩ := List.lookup_eq_some_iff.1 hv
  exact h (k, v) (by simp)

/-- Setting a field leaves the others. -/
theorem KeepsEntries.insertField {fields : List (String × Value)} (h : KeepsEntries ok fields)
    (k : String) {v : Value} (hv : v.Keeps ok) : KeepsEntries ok (insertField k v fields) := by
  induction fields with
  | nil => simpa [Script.insertField, KeepsEntries] using hv
  | cons f fields ih =>
    obtain ⟨l, w⟩ := f
    obtain ⟨hw, hrest⟩ := List.forall_mem_cons.1 h
    rw [Script.insertField]
    split_ifs
    · exact List.forall_mem_cons.2 ⟨hv, hrest⟩
    · exact List.forall_mem_cons.2 ⟨hv, h⟩
    · exact List.forall_mem_cons.2 ⟨hw, ih hrest⟩

/-- Fields put to others, of which they hide some. -/
theorem KeepsEntries.joinFields {fields more : List (String × Value)} (h : KeepsEntries ok fields)
    (hm : KeepsEntries ok more) : KeepsEntries ok (joinFields fields more) := by
  unfold Script.joinFields
  induction more generalizing fields with
  | nil => exact h
  | cons f more ih =>
    obtain ⟨hf, hrest⟩ := List.forall_mem_cons.1 hm
    exact ih (h.insertField f.1 hf) hrest

mutual

/-- The values of JSON forms hold no functions. -/
theorem Value.keeps_ofJson : ∀ j : Json, (Value.ofJson j).Keeps ok
  | .null | .bool _ | .float _ | .str _ => keeps_nil
  | .int n => by
    rw [Value.ofJson]
    split_ifs <;> exact keeps_nil
  | .arr items => Value.keeps_array.2 (keepsItems_ofJsonItems items)
  | .obj fields => Value.keeps_map.2 (keepsEntries_ofJsonFields fields keepsEntries_nil)

theorem keepsItems_ofJsonItems : ∀ items : List Json, KeepsItems ok (Value.ofJsonItems items)
  | [] => keepsItems_nil
  | j :: items => keepsItems_cons.2 ⟨Value.keeps_ofJson j, keepsItems_ofJsonItems items⟩

theorem keepsEntries_ofJsonFields : ∀ (fields : List (String × Json)) {done},
    KeepsEntries ok done → KeepsEntries ok (Value.ofJsonFields done fields)
  | [], _, h => h
  | (k, j) :: fields, _, h =>
    keepsEntries_ofJsonFields fields (h.insertField k (Value.keeps_ofJson j))

end

/-! ## Causes and results -/

/-- A cause holds no function, nor a module that is not there but for an alias of the script. -/
def Cause.Keeps (ok : Reference → Prop) : Cause → Prop
  | .moduleNotFound m => ∃ path name, ok (.member path name) ∧ m = "::".intercalate path
  | .thrown v => v.Keeps ok
  | _ => True

/-- The value of a result keeps to what is given, or its cause does. -/
def Computed.Keeps (ok : Reference → Prop) : Computed Value → Prop
  | .ok v => v.Keeps ok
  | .error c => c.Keeps ok

@[simp] theorem Computed.keeps_ok {v : Value} :
    Computed.Keeps ok (.ok v) ↔ v.Keeps ok := Iff.rfl

@[simp] theorem Computed.keeps_error {c : Cause} :
    Computed.Keeps ok (.error c) ↔ c.Keeps ok := Iff.rfl

/-- A result, or another one where there is none. -/
theorem Computed.keeps_getD {o : Option (Computed Value)} {r : Computed Value}
    (ho : ∀ x ∈ o, x.Keeps ok) (hr : r.Keeps ok) : (o.getD r).Keeps ok := by
  cases o with
  | none => exact hr
  | some x => exact ho x rfl

/-- So do both values of the answer of a function, if there is one. -/
def Native.Keeps (ok : Reference → Prop) : Option Native → Prop
  | some (.ok (v, changed)) => v.Keeps ok ∧ ∀ x ∈ changed, x.Keeps ok
  | some (.error c) => c.Keeps ok
  | none => True

namespace Native

@[simp] theorem keeps_none : Keeps ok none := trivial

@[simp] theorem keeps_result {v : Value} : Keeps ok (result v) ↔ v.Keeps ok := by
  simp [result, Keeps]

@[simp] theorem keeps_change {v : Value} : Keeps ok (change v) ↔ v.Keeps ok := by
  simp [change, Keeps]

@[simp] theorem keeps_take {v rest : Value} :
    Keeps ok (take v rest) ↔ v.Keeps ok ∧ rest.Keeps ok := by
  simp [take, Keeps]

@[simp] theorem keeps_fault {message : String} : Keeps ok (fault message) := trivial

/-- A built-in function that needs a part of its arguments first. -/
@[simp] theorem keeps_bind {α : Type} {o : Option α} {f : α → Option Native} :
    Keeps ok (o.bind f) ↔ ∀ a ∈ o, Keeps ok (f a) := by
  cases o <;> simp

/-- One of several functions of a name. -/
theorem keeps_orElse {o more : Option Native} (ho : Keeps ok o) (hm : Keeps ok more) :
    Keeps ok (o.orElse fun _ => more) := by
  cases o with
  | none => exact hm
  | some a => exact ho

end Native

/-! ## Built-in functions -/

@[simp] theorem parsedInt_keeps (text : String) (base : Nat) :
    Native.Keeps ok (parsedInt text base) := by
  unfold parsedInt
  split <;> simp

@[simp] theorem parsedFloat_keeps (text : String) : Native.Keeps ok (parsedFloat text) := by
  unfold parsedFloat
  simp only
  split_ifs
  · simp
  · split <;> simp
  · simp

/-- Functions of numbers give no functions. -/
theorem numberFunction_keeps (name : String) (args : List Value) :
    Native.Keeps ok (numberFunction name args) := by
  unfold numberFunction
  split <;> (try split_ifs) <;> try simp
  split <;> simp

@[simp] theorem keeps_textArray {parts : List (List Char)} : (textArray parts).Keeps ok := by
  simp [textArray, KeepsItems]

/-- Nor do those of texts. -/
theorem textFunction_keeps (name : String) (cs : List Char) (args : List Value) :
    Native.Keeps ok (textFunction name cs args) := by
  unfold textFunction
  simp only
  split <;> try simp [Option.bind_eq_some_iff]
  rintro _ _ _ c - rfl
  exact Value.keeps_char

/-- Nor do those of ranges. -/
theorem rangeFunction_keeps (name : String) (lo hi : Int) (closed : Bool) (args : List Value) :
    Native.Keeps ok (rangeFunction name lo hi closed args) := by
  unfold rangeFunction
  split <;> simp

/-- Nor those that take any value. -/
theorem anyFunction_keeps (name : String) (args : List Value) :
    Native.Keeps ok (anyFunction name args) := by
  unfold anyFunction
  split <;> simp

theorem insertSorted_subset (before : Value → Value → Bool) (v : Value) (items : List Value) :
    insertSorted before v items ⊆ v :: items := by
  induction items with
  | nil => simp [insertSorted]
  | cons w items ih =>
    rw [insertSorted]
    split_ifs
    · exact List.Subset.refl _
    · intro u hu
      rcases List.mem_cons.1 hu with rfl | hu
      · simp
      · rcases List.mem_cons.1 (ih hu) with rfl | hu <;> simp [*]

/-- Sorting puts no items in. -/
theorem sorted_subset (before : Value → Value → Bool) (items : List Value) :
    items.foldr (insertSorted before) [] ⊆ items := by
  induction items with
  | nil => exact List.Subset.refl _
  | cons v items ih =>
    exact List.Subset.trans (insertSorted_subset before v _) (List.cons_subset_cons v ih)

/-- Nor does leaving out items that come again. -/
theorem dedup_subset (items : List Value) : dedup items ⊆ items := by
  induction items with
  | nil => exact List.Subset.refl _
  | cons v items ih =>
    rw [dedup]
    split
    · simp
    · rename_i w more hmore
      rw [hmore] at ih
      split_ifs
      · exact List.cons_subset_cons v fun u hu => ih (List.mem_cons_of_mem w hu)
      · exact List.cons_subset_cons v ih

/-- Nor does taking a part. -/
theorem slice_subset {α : Type} (items : List α) (start count : Int) :
    slice items start count ⊆ items :=
  List.Subset.trans (List.take_subset ..) (List.drop_subset ..)

/-- What a function of arrays gives is made of their items and of its arguments. -/
theorem arrayFunction_keeps (name : String) {items args : List Value} (hi : KeepsItems ok items)
    (ha : KeepsItems ok args) : Native.Keeps ok (arrayFunction name items args) := by
  unfold arrayFunction
  split <;> (try simp only [keepsItems_cons, Value.keeps_array] at ha) <;> try simp
  -- `push`
  case h_3 => exact ⟨hi, ha.1⟩
  -- `append`
  case h_4 => exact ⟨hi, ha.1⟩
  -- `insert`
  case h_5 =>
    exact ⟨hi.subset (List.take_subset ..), ha.2.1, hi.subset (List.drop_subset ..)⟩
  -- `pop`
  case h_6 =>
    exact ⟨fun v hv => hi v (List.mem_of_getLast? hv), hi.subset (List.dropLast_subset _)⟩
  -- `shift`
  case h_7 =>
    exact ⟨fun v hv => hi v (List.mem_of_head? hv), fun v hv => hi v (List.mem_of_mem_tail hv)⟩
  -- `remove`
  case h_8 =>
    split
    · simpa using ⟨fun v hv => hi v (List.mem_of_getElem? hv), hi.subset (List.eraseIdx_subset ..)⟩
    · simp
  -- `truncate`
  case h_10 => exact hi.subset (List.take_subset ..)
  -- `chop`
  case h_11 => exact hi.subset (List.drop_subset ..)
  -- `reverse`
  case h_12 => exact fun v hv => hi v (List.mem_reverse.1 hv)
  -- `get`
  case h_13 =>
    intro v hv
    obtain ⟨n, -, hv⟩ := Option.bind_eq_some_iff.1 hv
    exact hi v (List.mem_of_getElem? hv)
  -- `set`
  case h_14 i v =>
    cases offset? items.length i with
    | none => exact hi
    | some n => exact hi.set n ha.2.1
  -- `pad`
  case h_15 => exact ⟨hi, fun v hv => (List.mem_replicate.1 hv).2 ▸ ha.2.1⟩
  -- `extract`, in its three forms
  case h_16 => exact hi.subset (slice_subset ..)
  case h_17 => exact hi.subset (slice_subset ..)
  case h_18 => exact hi.subset (slice_subset ..)
  -- `dedup`
  case h_20 => exact hi.subset (dedup_subset items)
  -- `sort`
  case h_21 =>
    split
    · split_ifs
      · trivial
      · simpa using hi.subset (sorted_subset ..)
    · simp

/-- What a function of maps gives is made of their fields and of its arguments. -/
theorem mapFunction_keeps (name : String) {fields : List (String × Value)} {args : List Value}
    (hf : KeepsEntries ok fields) (ha : KeepsItems ok args) :
    Native.Keeps ok (mapFunction name fields args) := by
  unfold mapFunction
  split <;> (try simp only [keepsItems_cons, Value.keeps_map] at ha) <;> try simp
  -- `keys`
  case h_4 =>
    intro v hv
    obtain ⟨f, -, rfl⟩ := List.mem_map.1 hv
    exact Value.keeps_str
  -- `values`
  case h_5 =>
    intro v hv
    obtain ⟨f, hmem, rfl⟩ := List.mem_map.1 hv
    exact hf f hmem
  -- `get`
  case h_6 => exact fun v hv => hf.lookup hv
  -- `set`
  case h_7 => exact hf.insertField _ ha.2.1
  -- `remove`
  case h_8 => exact ⟨fun v hv => hf.lookup hv, fun f hmem => hf f (List.mem_of_mem_filter hmem)⟩
  -- `mixin`
  case h_9 => exact hf.joinFields ha.1
  -- `fill_with`
  case h_10 => exact ha.1.joinFields hf

/-- What a built-in function gives refers to no more than its arguments. -/
theorem builtin_keeps (name : String) {args : List Value} (ha : KeepsItems ok args) :
    Native.Keeps ok (builtin name args) := by
  unfold builtin
  refine Native.keeps_orElse (Native.keeps_orElse ?_ (numberFunction_keeps ..))
    (anyFunction_keeps ..)
  split <;> try simp only [keepsItems_cons, Value.keeps_array, Value.keeps_map] at ha
  · exact textFunction_keeps ..
  · exact arrayFunction_keeps _ ha.1 ha.2
  · exact mapFunction_keeps _ ha.1 ha.2
  · exact rangeFunction_keeps ..
  · trivial

/-! ## Operators and access to parts -/

theorem checked_keeps (what : String) (a : Int) (op : String) (b n : Int) :
    (checked what a op b n).Keeps ok := by
  unfold checked
  split_ifs <;> simp [arithmeticFault, Cause.Keeps]

theorem intPower_keeps (a b : Int) : (intPower a b).Keeps ok := by
  unfold intPower
  split_ifs <;> first | trivial | exact Value.keeps_int | exact checked_keeps ..

/-- An operator on whole numbers gives a number or a truth value, or fails. -/
theorem intOp_keeps (op : String) (a b : Int) : ∀ r ∈ intOp op a b, r.Keeps ok := by
  unfold intOp
  split <;> rintro _ ⟨⟩
  case h_4 => split_ifs <;> first | trivial | exact checked_keeps ..
  case h_5 => split_ifs <;> first | trivial | exact Value.keeps_int
  case h_6 => exact intPower_keeps a b
  all_goals first | exact checked_keeps .. | exact Value.keeps_int | exact Value.keeps_range

/-- The same on other numbers. -/
theorem floatOp_keeps (op : String) (a b : Float) : ∀ v ∈ floatOp op a b, v.Keeps ok := by
  unfold floatOp
  split <;> rintro _ ⟨⟩ <;> exact Value.keeps_float

/-- On arrays and maps it may put both operands together. -/
theorem otherOp_keeps (op : String) {a b : Value} (ha : a.Keeps ok) (hb : b.Keeps ok) :
    ∀ v ∈ otherOp op a b, v.Keeps ok := by
  unfold otherOp
  split <;> rintro _ ⟨⟩
  case h_1 => simpa using ⟨Value.keeps_array.1 ha, Value.keeps_array.1 hb⟩
  case h_2 => simpa using (Value.keeps_map.1 ha).joinFields (Value.keeps_map.1 hb)
  all_goals first | exact Value.keeps_str | exact Value.keeps_bool

/-- What an operator gives refers to no more than its operands. -/
theorem binaryOp_keeps (op : String) {a b : Value} (ha : a.Keeps ok) (hb : b.Keeps ok) :
    (binaryOp op a b).Keeps ok := by
  have hsome : ∀ o : Option Value, (∀ v ∈ o, v.Keeps ok) →
      ∀ r ∈ (o.map .ok : Option (Computed Value)), r.Keeps ok := by
    intro o ho r hr
    obtain ⟨v, hv, rfl⟩ := Option.map_eq_some_iff.1 hr
    exact ho v hv
  unfold binaryOp
  simp only
  split_ifs
  · exact Value.keeps_bool
  · exact Value.keeps_bool
  · split
    · exact Value.keeps_bool
    · trivial
  · split
    · exact Value.keeps_bool
    · trivial
  · split
    · exact Value.keeps_bool
    · exact Value.keeps_bool
  · split
    · exact Computed.keeps_getD (intOp_keeps op _ _) trivial
    · split
      · exact Computed.keeps_getD (hsome _ (floatOp_keeps op _ _)) trivial
      · exact Computed.keeps_getD (hsome _ (otherOp_keeps op ha hb)) trivial

/-- What a sign gives is no function. -/
theorem unaryOp_keeps (op : String) (a : Value) : (unaryOp op a).Keeps ok := by
  unfold unaryOp
  split <;> (try split_ifs) <;> simp [Cause.Keeps]

/-- An assignment with an operator refers to no more than the old value and the new one. -/
theorem assignOp_keeps (op : String) {a b : Value} (ha : a.Keeps ok) (hb : b.Keeps ok) :
    (assignOp op a b).Keeps ok := by
  unfold assignOp
  split
  · simpa using ⟨Value.keeps_array.1 ha, Value.keeps_array.1 hb⟩
  · simpa using ⟨Value.keeps_array.1 ha, hb⟩
  · exact binaryOp_keeps op ha hb

/-- An item of a value is part of it. -/
theorem entry_keeps {v : Value} (hv : v.Keeps ok) (idx : Value) : (entry v idx).Keeps ok := by
  unfold entry
  split
  case h_1 =>
    split
    · simpa using fun v h => (Value.keeps_array.1 hv) v (List.mem_of_getElem? h)
    · trivial
  case h_3 => simpa using fun v h => (Value.keeps_map.1 hv).lookup h
  case h_5 => split <;> simp [Cause.Keeps]
  case h_7 => split <;> simp [Cause.Keeps]
  all_goals trivial

/-- A value with an item set is made of the two. -/
theorem setEntry_keeps {v new : Value} (hv : v.Keeps ok) (hn : new.Keeps ok) (idx : Value) :
    (setEntry v idx new).Keeps ok := by
  have hentry := entry_keeps hv idx
  unfold setEntry
  split
  case h_1 =>
    split
    · simpa using (Value.keeps_array.1 hv).set _ hn
    · trivial
  case h_2 => simpa using (Value.keeps_map.1 hv).insertField _ hn
  case h_3 => split <;> simp [Cause.Keeps]
  case h_4 => split <;> simp [Cause.Keeps]
  case h_5 =>
    split
    · trivial
    · rename_i h
      rwa [h] at hentry

/-- So a field is part of its value. -/
theorem property_keeps {v : Value} (hv : v.Keeps ok) (name : String) :
    (property v name).Keeps ok := by
  unfold property
  split
  · simpa using fun v h => (Value.keeps_map.1 hv).lookup h
  · have hbuiltin : Native.Keeps ok (if isGetter v name then builtin name [v] else none) := by
      split_ifs
      · exact builtin_keeps name (by simpa using hv)
      · trivial
    split
    · rename_i result h
      rw [h] at hbuiltin
      cases result with
      | ok r => exact hbuiltin.1
      | error c => exact hbuiltin
    · trivial

/-- And so is a value with a field set made of the two. -/
theorem setProperty_keeps {v new : Value} (hv : v.Keeps ok) (hn : new.Keeps ok) (name : String) :
    (setProperty v name new).Keeps ok := by
  unfold setProperty
  split
  · simpa using (Value.keeps_map.1 hv).insertField name hn
  · trivial

end LiveScene.Script
