import LiveScene.Sandbox.SceneModule
import LiveScene.Proofs.Scene.Wire

/-!
# Values between calls

What a function of the module gives is a form turned into a value, and the
next function turns the value into a form again. All forms survive this
(`fieldForm?_ofJson`), with their floats as they are and their fields in the
order of names, so values of scripts are a carrier (`carrier_returned`).
-/

namespace LiveScene.Sandbox

open Json Scene Script

/-- The form of a value, `null` if it has none. -/
def form (v : Value) : Json := (fieldForm? v).getD .null

/-- What the next function sees of a form that a function gives. -/
def returned (v : Json) : Json := form (.ofJson v)

/-! ## Forms of arrays and maps -/

/-- Items with forms make up an array with a form. -/
theorem fieldForms?_eq_map {items : List Value}
    (h : ∀ v ∈ items, fieldForm? v = some (form v)) :
    fieldForms? items = some (items.map form) := by
  induction items with
  | nil => rfl
  | cons v rest ih =>
    rw [List.forall_mem_cons] at h
    rw [fieldForms?, h.1, ih h.2]
    rfl

/-- Fields with forms make up an object with a form. -/
theorem namedForms?_eq_map {fields : List (String × Value)}
    (h : ∀ f ∈ fields, fieldForm? f.2 = some (form f.2)) :
    namedForms? fields = some (fields.map fun f => (f.1, form f.2)) := by
  induction fields with
  | nil => rfl
  | cons f rest ih =>
    rw [List.forall_mem_cons] at h
    rw [namedForms?, h.1, ih h.2]
    rfl

theorem ofJsonItems_eq_map (items : List Json) :
    Value.ofJsonItems items = items.map Value.ofJson := by
  induction items with
  | nil => rfl
  | cons v rest ih => rw [Value.ofJsonItems, List.map_cons, ih]

/-- What holds of a value and of all fields holds of the fields with the value. -/
theorem insertField_forall {P : Value → Prop} {key : String} {v : Value}
    {fields : List (String × Value)} (hv : P v) (hfields : ∀ f ∈ fields, P f.2) :
    ∀ f ∈ insertField key v fields, P f.2 := by
  induction fields with
  | nil => simpa [insertField] using hv
  | cons g rest ih =>
    have hrest := (List.forall_mem_cons.1 hfields).2
    rw [insertField]
    split_ifs
    · exact List.forall_mem_cons.2 ⟨hv, hrest⟩
    · exact List.forall_mem_cons.2 ⟨hv, hfields⟩
    · exact List.forall_mem_cons.2 ⟨(List.forall_mem_cons.1 hfields).1, ih hrest⟩

/-- A field with a new name is put among the others. -/
theorem insertField_perm {key : String} {v : Value} {fields : List (String × Value)}
    (h : key ∉ fields.map Prod.fst) : (insertField key v fields).Perm ((key, v) :: fields) := by
  induction fields with
  | nil => exact .refl _
  | cons g rest ih =>
    rw [List.map_cons, List.mem_cons, not_or] at h
    rw [insertField, if_neg (Ne.symm h.1)]
    split_ifs
    · exact .refl _
    · exact ((ih h.2).cons _).trans (.swap _ _ _)

/-- Fields with names of their own become entries, in the order of keys. -/
theorem ofJsonFields_perm {done : List (String × Value)} {fields : List (String × Json)}
    (h : (done.map Prod.fst ++ fields.map Prod.fst).Nodup) :
    (Value.ofJsonFields done fields).Perm (done ++ fields.map fun f => (f.1, .ofJson f.2)) := by
  induction fields generalizing done with
  | nil => simp [Value.ofJsonFields]
  | cons f rest ih =>
    obtain ⟨k, v⟩ := f
    rw [List.map_cons, List.nodup_middle, List.nodup_cons, List.mem_append, not_or] at h
    have hput := insertField_perm (v := .ofJson v) h.1.1
    have hnames : ((insertField k (.ofJson v) done).map Prod.fst ++ rest.map Prod.fst).Nodup := by
      refine ((hput.map Prod.fst).append_right _).nodup_iff.2 ?_
      exact List.nodup_cons.2 ⟨by simpa using h.1, h.2⟩
    rw [Value.ofJsonFields]
    refine (ih hnames).trans ((hput.append_right _).trans ?_)
    exact List.perm_middle.symm

/-! ## Forms that are given back -/

mutual

/-- A value that was made of a form has a form. -/
theorem fieldForm?_ofJson (v : Json) : fieldForm? (.ofJson v) = some (returned v) := by
  match v with
  | .null | .bool _ | .float _ | .str _ => rfl
  | .int n =>
    rw [returned, Value.ofJson]
    split_ifs <;> rfl
  | .arr items =>
    have h := fieldForm?_ofJsonItems items
    simp [returned, form, Value.ofJson, fieldForm?, fieldForms?_eq_map h]
  | .obj fields =>
    have h := fieldForm?_ofJsonFields [] nofun fields
    simp [returned, form, Value.ofJson, fieldForm?, namedForms?_eq_map h]

/-- `fieldForm?_ofJson` for all items. -/
theorem fieldForm?_ofJsonItems (items : List Json) :
    ∀ v ∈ Value.ofJsonItems items, fieldForm? v = some (form v) := by
  match items with
  | [] => nofun
  | v :: rest =>
    rw [Value.ofJsonItems, List.forall_mem_cons]
    exact ⟨fieldForm?_ofJson v, fieldForm?_ofJsonItems rest⟩

/-- `fieldForm?_ofJson` for all entries. -/
theorem fieldForm?_ofJsonFields (done : List (String × Value))
    (hdone : ∀ f ∈ done, fieldForm? f.2 = some (form f.2)) (fields : List (String × Json)) :
    ∀ f ∈ Value.ofJsonFields done fields, fieldForm? f.2 = some (form f.2) := by
  match fields with
  | [] => exact hdone
  | (k, v) :: rest =>
    rw [Value.ofJsonFields]
    exact fieldForm?_ofJsonFields _ (insertField_forall
      (P := fun w => fieldForm? w = some (form w)) (fieldForm?_ofJson v) hdone) rest

end

/-- Values of scripts keep all floats. -/
theorem carrier_returned : Carrier returned fun _ => true where
  null := rfl
  bool _ := rfl
  str _ := rfl
  byte {n} hn := by
    have hfits : fitsInt n = true := by
      rw [fitsInt, Bool.and_eq_true, decide_eq_true_iff, decide_eq_true_iff, minInt, maxInt]
      omega
    rw [returned, Json.nat, Value.ofJson, if_pos hfits]
    rfl
  float _ := rfl
  arr items := by
    rw [returned, form, Value.ofJson, fieldForm?,
      fieldForms?_eq_map (fieldForm?_ofJsonItems items), ofJsonItems_eq_map, List.map_map]
    rfl
  obj {fields} h := by
    have hperm : (Value.ofJsonFields [] fields).Perm (fields.map fun f => (f.1, .ofJson f.2)) :=
      ofJsonFields_perm h
    refine ⟨(Value.ofJsonFields [] fields).map fun f => (f.1, form f.2), ?_, ?_⟩
    · rw [returned, form, Value.ofJson, fieldForm?,
        namedForms?_eq_map (fieldForm?_ofJsonFields [] nofun fields)]
      rfl
    · have := hperm.map fun f => (f.1, form f.2)
      rwa [List.map_map] at this

end LiveScene.Sandbox
