import LiveScene.Proofs.Script.Scope
import LiveScene.Sandbox.Engine
import Mathlib.Data.String.Basic

/-!
# What a script exports

Exports are put one by one into a list in the order of the names, which stays
in order (`Exports.ordered_insert`). A value without a JSON form is not put
there, so of variables of one name the newest with a JSON form counts
(`get?_collectExports`), and not the newest.

The two only differ where a name comes twice among the variables. A script
leaves each name once, as a variable takes the place of one of the same name
in its block, and so its exports are the forms of the variables that are
visible at its end (`exports_of_left`).
-/

namespace LiveScene.Sandbox

open Script

namespace Exports

/-! ## Entries -/

theorem lookup_cons_eq {α : Type} (name k : String) (a : α) (entries : List (String × α)) :
    ((k, a) :: entries).lookup name = if name = k then some a else entries.lookup name := by
  rw [List.lookup_cons]
  by_cases h : name = k
  · simp [h]
  · simp [h, beq_false_of_ne h]

/-- A value that is put in is found under its name, and all else as before. -/
theorem lookup_insertEntry (name other : String) (v : Json) (entries : List (String × Json)) :
    (insertEntry name v entries).lookup other =
      if other = name then some v else entries.lookup other := by
  induction entries with
  | nil => exact lookup_cons_eq other name v []
  | cons entry entries ih =>
    obtain ⟨k, w⟩ := entry
    rw [insertEntry]
    by_cases heq : k = name
    · rw [if_pos heq, lookup_cons_eq, lookup_cons_eq, heq]
      split_ifs <;> rfl
    by_cases hlt : name < k
    · rw [if_neg heq, if_pos hlt, lookup_cons_eq]
    rw [if_neg heq, if_neg hlt, lookup_cons_eq, lookup_cons_eq, ih]
    by_cases hk : other = k
    · have hne : other ≠ name := fun h => heq (hk.symm.trans h)
      rw [if_pos hk, if_pos hk, if_neg hne]
    · rw [if_neg hk, if_neg hk]

/-- Putting in a value adds its name, if it was not there. -/
theorem mem_keys_insertEntry (name k : String) (v : Json) (entries : List (String × Json)) :
    k ∈ (insertEntry name v entries).map (·.1) ↔ k = name ∨ k ∈ entries.map (·.1) := by
  induction entries with
  | nil => simp [insertEntry]
  | cons entry entries ih =>
    rw [insertEntry]
    split_ifs with heq hlt
    · simp [heq]
    · simp
    · simp only [List.map_cons, List.mem_cons, ih, or_left_comm]

/-- The names are in their order, so each is there once. -/
def Ordered (e : Exports) : Prop := e.names.Pairwise (· < ·)

/-- Putting in a value keeps the names in order. -/
theorem ordered_insert {e : Exports} (h : e.Ordered) (name : String) (v : Json) :
    (e.insert name v).Ordered := by
  obtain ⟨entries⟩ := e
  simp only [Ordered, names, insert] at h ⊢
  induction entries with
  | nil => simp [insertEntry]
  | cons entry entries ih =>
    obtain ⟨hfirst, hrest⟩ := List.pairwise_cons.1 h
    rw [insertEntry]
    split_ifs with heq hlt
    · exact heq ▸ h
    · refine List.pairwise_cons.2 ⟨fun k hk => ?_, h⟩
      rcases List.mem_cons.1 hk with rfl | hk
      · exact hlt
      · exact hlt.trans (hfirst k hk)
    · refine List.pairwise_cons.2 ⟨fun k hk => ?_, ih hrest⟩
      rcases (mem_keys_insertEntry ..).1 hk with rfl | hk
      · exact lt_of_le_of_ne (not_lt.1 hlt) heq
      · exact hfirst k hk

@[simp] theorem get?_insert (e : Exports) (name other : String) (v : Json) :
    (e.insert name v).get? other = if other = name then some v else e.get? other :=
  lookup_insertEntry name other v e.entries

/-- The names are those under which there is a value. -/
theorem mem_names {e : Exports} {name : String} :
    name ∈ e.names ↔ (e.get? name).isSome = true := by
  rw [get?, List.lookup_isSome_iff, names, List.mem_map]
  simp only [beq_iff_eq, eq_comm (a := name)]

end Exports

/-! ## Collecting -/

/-- The form in which a value is exported, if it has one. -/
def exportForm? (v : Value) : Option Json := v.toJson?.map Json.settled

/-- The form of the value at the end of a script, if it is exported. -/
def trailingForm? : Value → Option Json
  | .unit => none
  | last => exportForm? last

/-- The form of the newest variable of a name that has one. -/
def newestForm? (vars : List (String × Value)) (name : String) : Option Json :=
  vars.reverse.findSome? fun b => if name = b.1 then exportForm? b.2 else none

/-- Exports with a form for a name, if there is one. -/
def putForm (e : Exports) (name : String) : Option Json → Exports
  | some j => e.insert name j
  | none => e

/-- Exports with the forms of variables, from the first on. -/
def putForms (e : Exports) (vars : List (String × Value)) : Exports :=
  vars.foldl (fun e b => putForm e b.1 (exportForm? b.2)) e

/-- Exports are collected from the variables first, and then from the last value. -/
theorem collectExports_eq (vars : List (String × Value)) (last : Value) :
    collectExports vars last =
      putForm (putForms .empty vars) Exports.defaultName (trailingForm? last) := by
  have hput : ∀ (e : Exports) (name : String) (v : Value),
      (match v.toJson? with
        | some j => e.insert name j.settled
        | none => e) = putForm e name (exportForm? v) := by
    intro e name v
    rw [exportForm?]
    cases v.toJson? <;> rfl
  have hfold : vars.foldl (fun e b => match b.2.toJson? with
        | some j => e.insert b.1 j.settled
        | none => e) .empty = putForms .empty vars :=
    congrArg (vars.foldl · .empty) (funext fun e => funext fun b => hput e b.1 b.2)
  have hlast := (hput _ Exports.defaultName last).trans (congrArg (putForm · _ _) hfold)
  cases last
  case unit => exact hfold
  all_goals exact hlast

/-- A form that is there hides what stood under its name. -/
theorem get?_putForm (e : Exports) (name other : String) (form : Option Json) :
    (putForm e name form).get? other =
      (if other = name then form else none).or (e.get? other) := by
  cases form with
  | none => simp [putForm]
  | some j =>
    rw [putForm, Exports.get?_insert]
    split_ifs <;> rfl

/-- Putting a form in, or none, keeps the names in order. -/
theorem ordered_putForm {e : Exports} (h : e.Ordered) (name : String) (form : Option Json) :
    (putForm e name form).Ordered := by
  cases form with
  | none => exact h
  | some j => exact Exports.ordered_insert h name j

/-- A later variable with a form hides an earlier one. -/
theorem newestForm?_append (vars later : List (String × Value)) (name : String) :
    newestForm? (vars ++ later) name = (newestForm? later name).or (newestForm? vars name) := by
  rw [newestForm?, List.reverse_append, List.findSome?_append, newestForm?, newestForm?]

theorem newestForm?_singleton (b : String × Value) (name : String) :
    newestForm? [b] name = if name = b.1 then exportForm? b.2 else none := by
  rw [newestForm?, List.reverse_singleton, List.findSome?_singleton]

/-- The newest form of a name hides what stood under it. -/
theorem get?_putForms (e : Exports) (vars : List (String × Value)) (name : String) :
    (putForms e vars).get? name = (newestForm? vars name).or (e.get? name) := by
  induction vars generalizing e with
  | nil => rfl
  | cons b vars ih =>
    rw [putForms, List.foldl_cons, ← putForms, ih, get?_putForm, ← List.singleton_append,
      newestForm?_append, newestForm?_singleton, Option.or_assoc]

/-- Forms of any variables keep the names in order. -/
theorem ordered_putForms {e : Exports} (h : e.Ordered) (vars : List (String × Value)) :
    (putForms e vars).Ordered := by
  induction vars generalizing e with
  | nil => exact h
  | cons b vars ih => exact ih (ordered_putForm h b.1 _)

/-- What is collected stands in the order of the names. -/
theorem ordered_collectExports (vars : List (String × Value)) (last : Value) :
    (collectExports vars last).Ordered := by
  rw [collectExports_eq]
  exact ordered_putForm (ordered_putForms (e := .empty) List.Pairwise.nil vars) _ _

/-- Of variables of one name the newest with a form counts. The value at the end comes before
all of them. -/
theorem get?_collectExports (vars : List (String × Value)) (last : Value) (name : String) :
    (collectExports vars last).get? name =
      (if name = Exports.defaultName then trailingForm? last else none).or
        (newestForm? vars name) := by
  rw [collectExports_eq, get?_putForm, get?_putForms]
  simp [Exports.get?, Exports.empty]

/-- A name without a variable has no form. -/
theorem newestForm?_of_notMem {vars : List (String × Value)} {name : String}
    (h : name ∉ vars.map (·.1)) : newestForm? vars name = none := by
  refine List.findSome?_eq_none_iff.2 fun b hb => if_neg ?_
  rintro rfl
  exact h (List.mem_map_of_mem (List.mem_reverse.1 hb))

/-- Where no name comes twice, the newest variable of a name counts, with a form or without. -/
theorem newestForm?_of_nodup {vars : List (String × Value)} (h : (vars.map (·.1)).Nodup)
    (name : String) : newestForm? vars name = (vars.reverse.lookup name).bind exportForm? := by
  induction vars using List.reverseRecOn with
  | nil => rfl
  | append_singleton vars b ih =>
    obtain ⟨k, v⟩ := b
    rw [List.map_append, List.nodup_append] at h
    have hlookup : (vars ++ [(k, v)]).reverse.lookup name =
        if name = k then some v else vars.reverse.lookup name := by
      rw [List.reverse_append]
      exact Exports.lookup_cons_eq name k v vars.reverse
    rw [hlookup, newestForm?_append, newestForm?_singleton]
    split_ifs with hk
    · have hother : newestForm? vars name = none :=
        newestForm?_of_notMem fun hmem => h.2.2 _ hmem _ (List.mem_singleton_self k) hk
      rw [hother, Option.or_none, Option.bind_some]
    · exact ih h.1

/-! ## Scripts -/

/-- How code ends under the settings, and the variables that it leaves, oldest first. -/
def leftBy? (c : Config) (cancelled : Bool) (code : String) :
    Option (Ending × List (String × Value)) :=
  match parse (parseLimits c) code.toList with
  | .error _ => none
  | .ok p =>
    let (ending, s) := run ⟨runLimits c, importable, [], cancelled⟩ p code.toList.length
    some (ending, boundValues s)

section

variable {c : Config} {cancelled : Bool} {code : String} {ending : Ending}
  {vars : List (String × Value)}

/-- What code leaves is what its run leaves, once it parses. -/
theorem leftBy?_eq_some (h : leftBy? c cancelled code = some (ending, vars)) :
    ∃ p s, parse (parseLimits c) code.toList = .ok p ∧
      run ⟨runLimits c, importable, [], cancelled⟩ p code.toList.length = (ending, s) ∧
      boundValues s = vars := by
  unfold leftBy? at h
  split at h
  · cases h
  · rename_i p hp
    generalize hrun : run _ p _ = r at h
    obtain ⟨ending', s⟩ := r
    cases h
    exact ⟨p, s, hp, hrun, rfl⟩

/-- The variables that are left are those in scope, oldest first. -/
theorem map_fst_boundValues (s : Machine) : (boundValues s).map (·.1) = s.names.reverse := by
  simp [boundValues, Machine.names]

/-- Code leaves each name once. -/
theorem nodup_of_leftBy? (h : leftBy? c cancelled code = some (ending, vars)) :
    (vars.map (·.1)).Nodup := by
  obtain ⟨p, s, -, hrun, rfl⟩ := leftBy?_eq_some h
  have hnames := run_nodup_names ⟨runLimits c, importable, [], cancelled⟩ p code.toList.length
  rw [hrun] at hnames
  rw [map_fst_boundValues]
  exact List.nodup_reverse.2 hnames

/-- Code that comes to its end exports what is collected from what it leaves. -/
theorem outcome_of_leftBy? {last : Value}
    (h : leftBy? c cancelled code = some (.value last, vars)) :
    (evaluate c cancelled code).outcome = some (.completed (collectExports vars last)) := by
  obtain ⟨p, s, hp, hrun, rfl⟩ := leftBy?_eq_some h
  simp only [evaluate, hp, hrun]

/-- Let code leave variables of which none is named as the value at the end is exported. Each of
their names is exported with the form of the newest variable of the name, or not at all if that
has none. The value at the end is exported if it is not `()` and has a form, and nothing else is.
So of a name that is bound twice no older value remains. -/
theorem exports_of_left (h : leftBy? c cancelled code = some (ending, vars))
    (hdefault : Exports.defaultName ∉ vars.map (·.1)) (last : Value) :
    let exports := collectExports vars last
    (∀ name ∈ vars.map (·.1),
        exports.get? name = (vars.reverse.lookup name).bind exportForm?) ∧
      exports.default? = trailingForm? last ∧
      (∀ name ∈ exports.names, name ∈ vars.map (·.1) ∨ name = Exports.defaultName) ∧
      exports.Ordered ∧
      (ending = .value last →
        (evaluate c cancelled code).outcome = some (.completed exports)) := by
  intro exports
  have hnodup := nodup_of_leftBy? h
  refine ⟨fun name hname => ?_, ?_, fun name hname => ?_, ordered_collectExports vars last, ?_⟩
  · have hne : name ≠ Exports.defaultName := fun heq => hdefault (heq ▸ hname)
    rw [get?_collectExports, if_neg hne, Option.none_or, newestForm?_of_nodup hnodup]
  · rw [Exports.default?, get?_collectExports, if_pos rfl, newestForm?_of_notMem hdefault,
      Option.or_none]
  · rw [Exports.mem_names, get?_collectExports] at hname
    by_contra hother
    obtain ⟨hvars, hne⟩ := not_or.1 hother
    rw [if_neg hne, newestForm?_of_notMem hvars] at hname
    cases hname
  · rintro rfl
    exact outcome_of_leftBy? h

end

/-- A script that binds a name twice, the second time to a value without a form. -/
def reboundScript : String := "let x = 1; let y = 2; let x = |a| a; y"

/-- The script exports no older value. -/
theorem exports_of_left_rebound :
    ∃ ending vars, leftBy? .default false reboundScript = some (ending, vars) ∧
      Exports.defaultName ∉ vars.map (·.1) ∧
      (collectExports vars (.int 2)).get? "x" = none ∧
      (collectExports vars (.int 2)).get? "y" = (vars.reverse.lookup "y").bind exportForm? ∧
      (collectExports vars (.int 2)).default? = exportForm? (.int 2) := by
  have hnames : (leftBy? .default false reboundScript).map (·.2.map (·.1)) = some ["x", "y"] := by
    decide +kernel
  have hx : (leftBy? .default false reboundScript).all
      fun left => ((left.2.reverse.lookup "x").bind exportForm?).isNone := by decide +kernel
  obtain ⟨⟨ending, vars⟩, hleft, hvars⟩ := Option.map_eq_some_iff.1 hnames
  rw [hleft] at hx
  have hdefault : Exports.defaultName ∉ vars.map (·.1) := by
    rw [hvars]
    decide
  obtain ⟨hforms, hlast, -⟩ := exports_of_left hleft hdefault (.int 2)
  refine ⟨ending, vars, hleft, hdefault, ?_, hforms "y" (by simp [hvars]), hlast⟩
  exact (hforms "x" (by simp [hvars])).trans (Option.isNone_iff_eq_none.1 hx)

end LiveScene.Sandbox
