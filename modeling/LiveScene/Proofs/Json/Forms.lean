import LiveScene.Json
import LiveScene.Proofs.Decimal.Finite
import Mathlib.Data.List.Nodup
import Mathlib.Data.List.Perm.Basic

/-!
# Forms that decode again

A value written as JSON comes to the decoder by a carrier. The wire settles
it (`carrier_settled`), and values of scripts are another carrier. A
`Carrier` keeps the values of fields, while it may change their order, and
`keeps` says which floats arrive.

`ReadsBack` says of a form that decoding what a carrier brings gives back
exactly the values that fit. Forms of lists and of optional values read back
if those of their items do. The other way, `list?_eq_some_iff` is which values
are taken for a list. `Json.numeric` holds of the values that JSON has: its
whole numbers are of 64 bits and its floats are finite.
-/

namespace LiveScene.Json

/-! ## Settled values -/

theorem settledItems_eq_map (items : List Json) : settledItems items = items.map settled := by
  induction items with
  | nil => rfl
  | cons v rest ih => rw [settledItems, List.map_cons, ih]

/-- A field with a name of its own is added at the end. -/
theorem putField_of_notMem {name : String} {v : Json} {fields : List (String × Json)}
    (h : name ∉ fields.map Prod.fst) : putField name v fields = fields ++ [(name, v)] := by
  induction fields with
  | nil => rfl
  | cons f rest ih =>
    rw [List.map_cons, List.mem_cons, not_or] at h
    rw [putField, if_neg (Ne.symm h.1), ih h.2, List.cons_append]

/-- Fields with names of their own are settled one after another. -/
theorem settledFields_of_nodup {done fields : List (String × Json)}
    (h : (done.map Prod.fst ++ fields.map Prod.fst).Nodup) :
    settledFields done fields = done ++ fields.map fun f => (f.1, f.2.settled) := by
  induction fields generalizing done with
  | nil => simp [settledFields]
  | cons f rest ih =>
    obtain ⟨k, v⟩ := f
    have hk : k ∉ done.map Prod.fst := by
      rw [List.map_cons, List.nodup_middle, List.nodup_cons] at h
      exact fun hmem => h.1 (List.mem_append_left _ hmem)
    have hdone : ((done ++ [(k, v.settled)]).map Prod.fst ++ rest.map Prod.fst).Nodup := by
      simpa using h
    rw [settledFields, putField_of_notMem hk, ih hdone, List.append_assoc, List.map_cons,
      List.singleton_append]

/-- Where no name is repeated, settling an object settles its fields in place. -/
theorem settled_obj {fields : List (String × Json)} (h : (fields.map Prod.fst).Nodup) :
    settled (.obj fields) = .obj (fields.map fun f => (f.1, f.2.settled)) := by
  rw [settled, settledFields_of_nodup (by simpa using h), List.nil_append]

theorem lookup_map_snd (f : Json → Json) (name : String) (fields : List (String × Json)) :
    (fields.map fun p => (p.1, f p.2)).lookup name = (fields.lookup name).map f := by
  induction fields with
  | nil => rfl
  | cons p rest ih =>
    rw [List.map_cons, List.lookup_cons, List.lookup_cons, ih]
    cases name == p.1 <;> rfl

/-! ## Carriers -/

/-- What brings a written value to a decoder. -/
structure Carrier (carry : Json → Json) (keeps : Float → Bool) : Prop where
  null : carry .null = .null
  bool (b : Bool) : carry (.bool b) = .bool b
  str (s : String) : carry (.str s) = .str s
  byte {n : Nat} (hn : n ≤ 255) : carry (.nat n) = .nat n
  float (x : Float) : float? (carry (.float x)) = if keeps x then some x else none
  arr (items : List Json) : carry (.arr items) = .arr (items.map carry)
  obj {fields : List (String × Json)} (h : (fields.map Prod.fst).Nodup) :
    ∃ fields', carry (.obj fields) = .obj fields' ∧
      fields'.Perm (fields.map fun f => (f.1, carry f.2))

/-- The wire loses the floats that are not finite. -/
theorem carrier_settled : Carrier settled Float.isFinite where
  null := by rw [settled]
  bool b := by rw [settled]
  str s := by rw [settled]
  byte _ := by rw [nat, settled]
  float x := by
    rw [settled]
    split_ifs <;> rfl
  arr items := by rw [settled, settledItems_eq_map]
  obj h := ⟨_, settled_obj h, .refl _⟩

/-- Where the names differ none is repeated. -/
theorem repeats_eq_false {name : String} {fields : List (String × Json)}
    (h : (fields.map Prod.fst).Nodup) : repeats name fields = false := by
  have hcount : fields.countP (fun f => f.1 = name) = (fields.map Prod.fst).count name := by
    rw [List.count, List.countP_map]
    rfl
  have := List.nodup_iff_count_le_one.1 h name
  simp only [repeats, hcount, decide_eq_false_iff_not]
  omega

theorem mem_of_lookup {name : String} {v : Json} {fields : List (String × Json)}
    (h : fields.lookup name = some v) : (name, v) ∈ fields := by
  obtain ⟨before, after, rfl, -⟩ := List.lookup_eq_some_iff.1 h
  simp

/-- Where the names differ each field is found by its own. -/
theorem lookup_of_mem {name : String} {v : Json} {fields : List (String × Json)}
    (hnames : (fields.map Prod.fst).Nodup) (h : (name, v) ∈ fields) :
    fields.lookup name = some v := by
  obtain ⟨before, after, rfl⟩ := List.append_of_mem h
  refine List.lookup_eq_some_iff.2 ⟨before, after, rfl, fun f hf => ?_⟩
  rw [List.map_append, List.map_cons, List.nodup_middle, List.nodup_cons] at hnames
  refine bne_iff_ne.2 fun hname => hnames.1 (List.mem_append_left _ ?_)
  exact List.mem_map.2 ⟨f, hf, hname.symm⟩

/-- Fields with names of their own are found wherever they stand. -/
theorem lookup_perm {fields fields' : List (String × Json)} (hp : fields'.Perm fields)
    (hnames : (fields.map Prod.fst).Nodup) (name : String) :
    fields'.lookup name = fields.lookup name := by
  have hnames' := (hp.map Prod.fst).nodup_iff.2 hnames
  refine Option.ext fun v => ⟨fun h => ?_, fun h => ?_⟩
  · exact lookup_of_mem hnames (hp.mem_iff.1 (mem_of_lookup h))
  · exact lookup_of_mem hnames' (hp.mem_iff.2 (mem_of_lookup h))

namespace Carrier

variable {carry : Json → Json} {keeps : Float → Bool} {fields : List (String × Json)}

/-- The fields of a carried object have names of their own and carried values. -/
theorem obj_lookup (hc : Carrier carry keeps) (h : (fields.map Prod.fst).Nodup) :
    ∃ fields', carry (.obj fields) = .obj fields' ∧ (fields'.map Prod.fst).Nodup ∧
      ∀ name, fields'.lookup name = (fields.lookup name).map carry := by
  obtain ⟨fields', hobj, hperm⟩ := hc.obj h
  have hnames : ((fields.map fun f => (f.1, carry f.2)).map Prod.fst).Nodup := by
    rwa [List.map_map]
  refine ⟨fields', hobj, (hperm.map Prod.fst).nodup_iff.2 hnames, fun name => ?_⟩
  rw [lookup_perm hperm hnames, lookup_map_snd]

/-- The fields of an object that is carried are found as they were written. -/
theorem object? (hc : Carrier carry keeps) (h : (fields.map Prod.fst).Nodup)
    (names : List String) :
    Json.object? names (carry (.obj fields)) = some fun n => (fields.lookup n).map carry := by
  obtain ⟨fields', hobj, hnames, hlookup⟩ := hc.obj_lookup h
  rw [hobj]
  simp [Json.object?, repeats_eq_false hnames, hlookup]

/-- So are those of a record, which may also come as an array. -/
theorem record? (hc : Carrier carry keeps) (h : (fields.map Prod.fst).Nodup)
    (names : List String) (least : Nat) :
    Json.record? names least (carry (.obj fields)) =
      some fun n => (fields.lookup n).map carry := by
  obtain ⟨fields', hobj, hnames, hlookup⟩ := hc.obj_lookup h
  rw [hobj]
  simp [Json.record?, repeats_eq_false hnames, hlookup]

/-- An object with one field is carried as one with that field. -/
theorem case? (hc : Carrier carry keeps) (name : String) (v : Json) :
    Json.case? (carry (.obj [(name, v)])) = some (name, some (carry v)) := by
  have hnames : ([(name, v)].map Prod.fst).Nodup := List.nodup_singleton name
  obtain ⟨fields', hobj, hperm⟩ := hc.obj hnames
  rw [hobj, List.perm_singleton.1 hperm]
  rfl

end Carrier

/-! ## Forms -/

theorem ite_some_bind {α β : Type} {p : Prop} [Decidable p] {a : α} {f : α → Option β} :
    (if p then some a else none).bind f = if p then f a else none := by
  split_ifs <;> rfl

@[simp] theorem optional_none {α : Type} {decode : Json → Option α} :
    Json.optional decode none = some none :=
  rfl

/-- An optional value that is not null is decoded as any other. -/
theorem optional_of_ne_null {α : Type} {decode : Json → Option α} {v : Json} (h : v ≠ .null) :
    Json.optional decode (some v) = (decode v).map some := by
  cases v with
  | null => exact absurd rfl h
  | _ => rfl

/-- Decoding the carried form of a value gives the value back where it fits, and nothing
where it does not. -/
def ReadsBack {α : Type} (carry : Json → Json) (encode : α → Json) (decode : Json → Option α)
    (fits : α → Bool) : Prop :=
  ∀ a, decode (carry (encode a)) = if fits a then some a else none

namespace ReadsBack

variable {α : Type} {carry : Json → Json} {keeps : Float → Bool} {encode : α → Json}
  {decode : Json → Option α} {fits : α → Bool}

/-- Texts read back. -/
theorem str (hc : Carrier carry keeps) : ReadsBack carry .str Json.str? fun _ => true := by
  intro s
  rw [hc.str]
  rfl

/-- So do truth values. -/
theorem bool (hc : Carrier carry keeps) : ReadsBack carry .bool Json.bool? fun _ => true := by
  intro b
  rw [hc.bool]
  rfl

/-- A list reads back if its items do. -/
theorem list? (hc : Carrier carry keeps) (h : ReadsBack carry encode decode fits) :
    ReadsBack carry (Json.ofList encode) (Json.list? decode) (List.all · fits) := by
  intro as
  rw [Json.ofList, hc.arr, List.map_map, Json.list?]
  induction as with
  | nil => rfl
  | cons a as ih =>
    rw [List.map_cons, List.mapM_cons, Function.comp_apply, h a, ih]
    by_cases ha : fits a = true <;> by_cases has : as.all fits = true <;> simp [ha, has]

/-- An optional value reads back if no value is written as `null`. -/
theorem optional (hc : Carrier carry keeps) (h : ReadsBack carry encode decode fits)
    (hnull : ∀ a, carry (encode a) ≠ .null) (o : Option α) :
    Json.optional decode (some (carry (Json.ofOption encode o))) =
      if o.all fits then some o else none := by
  cases o with
  | none => simp [Json.ofOption, Json.optional, hc.null]
  | some a =>
    rw [Json.ofOption, optional_of_ne_null (hnull a), h a, Option.all_some]
    by_cases ha : fits a = true <;> simp [ha]

end ReadsBack

/-! ## What decoders take -/

/-- Only a text is taken for one. -/
theorem str?_eq_some_iff {v : Json} {s : String} : v.str? = some s ↔ v = .str s := by
  cases v <;> simp [str?]

/-- A required field has to be there. -/
theorem required_eq_some_iff {α : Type} {decode : Json → Option α} {o : Option Json} {a : α} :
    Json.required decode o = some a ↔ ∃ v, o = some v ∧ decode v = some a := by
  cases o <;> simp [Json.required]

/-- The values that are taken for a list are the arrays of what is taken for its items. -/
theorem list?_eq_some_iff {α : Type} {decode : Json → Option α} {Form : α → Json → Prop}
    (hform : ∀ {a v}, decode v = some a ↔ Form a v) {v : Json} {as : List α} :
    Json.list? decode v = some as ↔ ∃ items, v = .arr items ∧ List.Forall₂ Form as items := by
  have hitems : ∀ items, items.mapM decode = some as ↔ List.Forall₂ Form as items := by
    intro items
    induction items generalizing as with
    | nil => cases as <;> simp
    | cons v items ih =>
      simp only [List.mapM_cons, Option.bind_eq_bind, Option.bind_eq_some_iff, Option.pure_def,
        Option.some.injEq]
      constructor
      · rintro ⟨a, ha, as', has, rfl⟩
        exact .cons (hform.1 ha) (ih.1 has)
      · rintro (_ | ⟨ha, has⟩)
        exact ⟨_, hform.2 ha, _, ih.2 has, rfl⟩
  cases v with
  | arr items => simp [Json.list?, hitems]
  | _ => simp [Json.list?]

/-! ## Numbers of JSON -/

mutual

/-- Whether all numbers of a value are such as JSON has: whole ones of 64 bits, and finite
floats. -/
def numeric : Json → Bool
  | .int n => decide (-9223372036854775808 ≤ n ∧ n ≤ maxSize)
  | .float x => x.isFinite
  | .arr items => numericItems items
  | .obj fields => numericFields fields
  | .null | .bool _ | .str _ => true

/-- `numeric` for all items. -/
def numericItems : List Json → Bool
  | [] => true
  | v :: rest => numeric v && numericItems rest

/-- `numeric` for all fields. -/
def numericFields : List (String × Json) → Bool
  | [] => true
  | (_, v) :: rest => numeric v && numericFields rest

end

theorem numericItems_iff {items : List Json} :
    numericItems items = true ↔ ∀ v ∈ items, v.numeric = true := by
  induction items with
  | nil => simp [numericItems]
  | cons v rest ih => simp [numericItems, ih]

theorem numericFields_iff {fields : List (String × Json)} :
    numericFields fields = true ↔ ∀ f ∈ fields, f.2.numeric = true := by
  induction fields with
  | nil => simp [numericFields]
  | cons f rest ih => simp [numericFields, ih]

@[simp] theorem numeric_arr {items : List Json} :
    numeric (.arr items) = true ↔ ∀ v ∈ items, v.numeric = true := by
  rw [numeric, numericItems_iff]

@[simp] theorem numeric_obj {fields : List (String × Json)} :
    numeric (.obj fields) = true ↔ ∀ f ∈ fields, f.2.numeric = true := by
  rw [numeric, numericFields_iff]

/-- The fields of a JSON value are JSON values. -/
theorem numeric_of_lookup {name : String} {v : Json} {fields : List (String × Json)}
    (hf : numeric (.obj fields) = true) (h : fields.lookup name = some v) : v.numeric = true :=
  numeric_obj.1 hf _ (mem_of_lookup h)

/-- What a decoder finds in the slots of an object is a JSON value. -/
theorem numeric_of_object? {names : List String} {v w : Json} {slot : Slots} {name : String}
    (hv : v.numeric = true) (h : v.object? names = some slot) (hw : slot name = some w) :
    w.numeric = true := by
  cases v with
  | obj fields =>
    simp only [object?] at h
    split_ifs at h
    cases h
    exact numeric_of_lookup hv hw
  | _ => cases h

/-- So it is for the slots of a record. -/
theorem numeric_of_record? {names : List String} {least : Nat} {v w : Json} {slot : Slots}
    {name : String} (hv : v.numeric = true) (h : v.record? names least = some slot)
    (hw : slot name = some w) : w.numeric = true := by
  cases v with
  | obj fields =>
    simp only [record?] at h
    split_ifs at h
    cases h
    exact numeric_of_lookup hv hw
  | arr items =>
    simp only [record?] at h
    split_ifs at h
    cases h
    exact numeric_arr.1 hv _ (List.of_mem_zip (mem_of_lookup hw)).2
  | _ => cases h

/-- What a decoder makes of values of JSON has a property. -/
def Ensures {α : Type} (decode : Json → Option α) (P : α → Prop) : Prop :=
  ∀ ⦃v a⦄, v.numeric = true → decode v = some a → P a

namespace Ensures

variable {α : Type} {decode : Json → Option α} {P : α → Prop}

/-- What holds of decoded items holds of all that are decoded one after another. -/
theorem mapM (h : Ensures decode P) {items : List Json} {as : List α}
    (hitems : ∀ v ∈ items, v.numeric = true) (has : items.mapM decode = some as) :
    ∀ a ∈ as, P a := by
  induction items generalizing as with
  | nil =>
    cases has
    simp
  | cons v rest ih =>
    simp only [List.mapM_cons, Option.bind_eq_bind, Option.bind_eq_some_iff] at has
    obtain ⟨a, ha, as', has', ⟨⟩⟩ := has
    rw [List.forall_mem_cons] at hitems ⊢
    exact ⟨h hitems.1 ha, ih hitems.2 has'⟩

/-- What holds of decoded items holds of all in a decoded list. -/
theorem list? (h : Ensures decode P) : Ensures (Json.list? decode) (∀ a ∈ ·, P a) := by
  intro v as hv has
  cases v with
  | arr items => exact h.mapM (numeric_arr.1 hv) has
  | _ => cases has

/-- What holds of decoded values holds of a required field. -/
theorem required (h : Ensures decode P) {o : Option Json} {a : α}
    (ho : ∀ v ∈ o, v.numeric = true) (ha : Json.required decode o = some a) : P a := by
  cases o with
  | none => cases ha
  | some v => exact h (ho v rfl) ha

end Ensures

/-- Numbers of JSON are finite as floats. -/
theorem float?_ensures : Ensures Json.float? (·.isFinite = true) := by
  intro v x hv h
  cases v with
  | float y =>
    cases h
    simpa [numeric] using hv
  | int n =>
    cases h
    refine Decimal.isFinite_ofInt ?_
    simp only [numeric, decide_eq_true_eq] at hv
    have hmax : (maxSize : Int) = 18446744073709551615 := rfl
    omega
  | _ => cases h

end LiveScene.Json
