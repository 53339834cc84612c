import LiveScene.Proofs.Script.Values
import LiveScene.Script.Machine

/-!
# Steps that go alike

Two steps of a run go alike if from every state with functions that keep to
what is given they lead to the same, and to such a state again
(`Eval.Alike`). What runs are put together from keeps this up: steps one after
the other (`Alike.bind`), blocks, calls, loops and caught failures.
-/

namespace LiveScene.Script

variable {ok : Reference → Prop}

/-- The value of a variable keeps to what is given. -/
def Slot.Keeps (ok : Reference → Prop) : Slot → Prop
  | .own v => v.Keeps ok
  | .shared _ => True

theorem Value.Keeps.own {v : Value} (h : v.Keeps ok) : (Slot.own v).Keeps ok := h

theorem Slot.keeps_shared {cell : Nat} : (Slot.shared cell).Keeps ok := trivial

/-- All values of a state do, and so do its aliases. -/
structure Machine.Keeps (ok : Reference → Prop) (s : Machine) : Prop where
  scope : ∀ b ∈ s.scope, b.slot.Keeps ok
  cells : ∀ v ∈ s.cells, v.Keeps ok
  this : ∀ v ∈ s.this, v.Keeps ok
  aliases : ∀ a ∈ s.aliases, ok (.load (some a.2) (some a.1))

/-- What ends a statement early does. -/
def Stop.Keeps (ok : Reference → Prop) : Stop → Prop
  | .failed f => f.cause.Keeps ok
  | .left v | .gave v => v.Keeps ok
  | .continued | .endless => True

namespace Machine.Keeps

variable {s outer : Machine}

/-- Before a script runs there is nothing to keep. -/
theorem initial : Machine.initial.Keeps ok := ⟨by simp [Machine.initial], by simp [Machine.initial],
  by simp [Machine.initial], by simp [Machine.initial]⟩

/-- Out of a block, its variables and aliases are gone. -/
theorem leaveTo (ho : outer.Keeps ok) (h : s.Keeps ok) : (outer.leaveTo s).Keeps ok where
  scope b hb := h.scope b (List.mem_of_mem_drop hb)
  cells := h.cells
  this := h.this
  aliases := ho.aliases

/-- Back from a function, the scope and `this` are those of its caller. -/
theorem returnTo (ho : outer.Keeps ok) (h : s.Keeps ok) : (outer.returnTo s).Keeps ok where
  scope := ho.scope
  cells := h.cells
  this := ho.this
  aliases := ho.aliases

end Machine.Keeps

namespace Eval

variable {α β σ : Type} {step step' : Eval α} {post : α → Prop} {post' : β → Prop}

/-- What comes of a step keeps to what is given. -/
def ResultKeeps (ok : Reference → Prop) (post : α → Prop) :
    EStateM.Result Stop Machine α → Prop
  | .ok a s => s.Keeps ok ∧ post a
  | .error e s => s.Keeps ok ∧ e.Keeps ok

/-- Two steps lead to the same from every state that keeps to what is given, and to such a
state again. What they give is as `post` says. -/
def Alike (ok : Reference → Prop) (step step' : Eval α) (post : α → Prop) : Prop :=
  ∀ s : Machine, s.Keeps ok → step s = step' s ∧ ResultKeeps ok post (step s)

/-- A value and another one, if there is one, keep to what is given. -/
def PairKeeps (ok : Reference → Prop) (r : Value × Option Value) : Prop :=
  r.1.Keeps ok ∧ ∀ x ∈ r.2, x.Keeps ok

/-- A value without a change. -/
theorem PairKeeps.unchanged {v : Value} (h : v.Keeps ok) : PairKeeps ok (v, none) :=
  ⟨h, fun _ => keeps_none⟩

namespace Alike

theorem pure {a : α} (h : post a) : Alike ok (Pure.pure a) (Pure.pure a) post :=
  fun _ hs => ⟨rfl, hs, h⟩

/-- Steps go alike one after the other, if what the first one gives is all that the second one
asks for. -/
theorem bind {next next' : α → Eval β} (hs : Alike ok step step' post)
    (hn : ∀ a, post a → Alike ok (next a) (next' a) post') :
    Alike ok (step >>= next) (step' >>= next') post' := by
  intro s hkeeps
  obtain ⟨heq, hres⟩ := hs s hkeeps
  simp only [Bind.bind, EStateM.bind, ← heq]
  cases h : step s with
  | ok a t =>
    rw [h] at hres
    exact hn a hres.2 t hres.1
  | error e t =>
    rw [h] at hres
    exact ⟨rfl, hres⟩

theorem throw {e : Stop} (h : e.Keeps ok) :
    Alike ok (throw e : Eval α) (throw e) post := fun _ hs => ⟨rfl, hs, h⟩

theorem endless : Alike ok (MonadExcept.throw Stop.endless : Eval α)
    (MonadExcept.throw Stop.endless) post := throw (e := .endless) trivial

/-- A failure is the same in both. -/
theorem fail {c : Cause} (h : c.Keeps ok) (p : Place) :
    Alike ok (fail c p : Eval α) (fail c p) post := throw (e := .failed (.raised c p)) h

/-- Both start from one state, which keeps to what is given. -/
theorem get : Alike ok (MonadState.get : Eval Machine) MonadState.get (Machine.Keeps ok) :=
  fun _ hs => ⟨rfl, hs, hs⟩

/-- A change of the state that keeps to what is given. -/
theorem modify {g : Machine → Machine} (h : ∀ s : Machine, s.Keeps ok → (g s).Keeps ok) :
    Alike ok (modify g : Eval PUnit) (modify g) fun _ => True := fun s hs => ⟨rfl, h s hs, trivial⟩

/-- What was computed apart from the state is the same in both. -/
theorem at_ (post : α → Prop) (p : Place) {r : Computed α} (hok : ∀ a, r = .ok a → post a)
    (herror : ∀ c, r = .error c → c.Keeps ok) : Alike ok (at_ p r) (at_ p r) post := by
  cases r with
  | ok a => exact pure (hok a rfl)
  | error c => exact fail (herror c rfl) p

/-- A computed value. -/
theorem value (p : Place) {r : Computed Value} (h : r.Keeps ok) :
    Alike ok (Eval.at_ p r) (Eval.at_ p r) (Value.Keeps ok) :=
  at_ _ p (fun _ hr => by rwa [hr] at h) fun _ hr => by rwa [hr] at h

/-- A check that ends the statement, and what comes behind it. -/
theorem stopIf {c : Prop} [Decidable c] {e : Stop} {next next' : α → Eval β}
    {rest rest' : Eval β} (he : e.Keeps ok) (h : ¬c → Alike ok rest rest' post') :
    Alike ok (if c then MonadExcept.throw e >>= next else rest)
      (if c then MonadExcept.throw e >>= next' else rest') post' := by
  have hthrow : Alike ok (MonadExcept.throw e : Eval α) (MonadExcept.throw e) fun _ => False :=
    throw he
  split_ifs with hcond
  · exact bind hthrow fun _ hf => hf.elim
  · exact h hcond

/-- A check that fails, and what comes behind it. -/
theorem guard {c : Prop} [Decidable c] {cause : Cause} {p : Place} {next next' : α → Eval β}
    {rest rest' : Eval β} (hc : cause.Keeps ok) (h : ¬c → Alike ok rest rest' post') :
    Alike ok (if c then Eval.fail cause p >>= next else rest)
      (if c then Eval.fail cause p >>= next' else rest') post' :=
  stopIf (e := .failed (.raised cause p)) hc h

/-- The condition is the same for both, so each branch may make use of it. -/
theorem ite {c : Prop} [Decidable c] {other other' : Eval α}
    (hs : c → Alike ok step step' post) (ho : ¬c → Alike ok other other' post) :
    Alike ok (if c then step else other) (if c then step' else other') post := by
  split_ifs with h
  · exact hs h
  · exact ho h

/-- Counting the operations looks at no module. -/
theorem track (w : World) (p : Place) : Alike ok (track w p) (track w p) fun _ => True := by
  unfold Eval.track
  refine bind get fun s _ => bind (modify fun s hs => ⟨hs.1, hs.2, hs.3, hs.4⟩) fun _ _ => ?_
  refine guard trivial fun _ => guard trivial fun _ => ?_
  exact ite (fun _ => endless) fun _ => pure trivial

/-- Nor does measuring a value. -/
theorem checkSize (w : World) (size : DataSize) (p : Place) :
    Alike ok (checkSize w size p) (checkSize w size p) fun _ => True := by
  unfold Eval.checkSize
  refine guard trivial fun _ => guard trivial fun _ => ?_
  exact ite (fun _ => fail (c := .tooLarge _) trivial p) fun _ => pure trivial

theorem sized (w : World) {v : Value} (h : v.Keeps ok) (p : Place) :
    Alike ok (sized w v p) (sized w v p) (Value.Keeps ok) := by
  have hsize : Alike ok (do Eval.checkSize w v.dataSize p; return v)
      (do Eval.checkSize w v.dataSize p; return v) (Value.Keeps ok) :=
    bind (checkSize w _ p) fun _ _ => pure h
  unfold Eval.sized
  split
  · exact hsize
  · exact hsize
  · exact hsize
  · exact pure h

/-- A variable in scope holds a value that keeps to what is given. -/
theorem load {slot : Slot} (h : slot.Keeps ok) :
    Alike ok (load slot) (load slot) (Value.Keeps ok) := by
  cases slot with
  | own v => exact pure h
  | shared c =>
    refine bind get fun s hs => pure ?_
    rw [Value.keeps_getD]
    exact fun v hv => hs.cells v (Array.mem_of_getElem? hv)

/-- What is found under a name is in scope. -/
theorem find? (name : String) :
    Alike ok (find? name) (find? name) fun b? => ∀ b ∈ b?, b.slot.Keeps ok :=
  bind get fun _ hs => pure fun b hb => hs.scope b (List.mem_of_find?_eq_some hb)

/-- A slot that keeps to what is given may take the place of any other. -/
theorem keeps_rebind (name : String) {slot : Slot} (h : slot.Keeps ok) {scope : List Binding}
    (hscope : ∀ b ∈ scope, b.slot.Keeps ok) : ∀ b ∈ rebind name slot scope, b.slot.Keeps ok := by
  induction scope with
  | nil => exact hscope
  | cons b scope ih =>
    obtain ⟨hb, hrest⟩ := List.forall_mem_cons.1 hscope
    rw [rebind]
    split_ifs
    · exact List.forall_mem_cons.2 ⟨h, hrest⟩
    · exact List.forall_mem_cons.2 ⟨hb, ih hrest⟩

/-- Setting a variable, in its own place or in the cell it is shared in. -/
theorem store (name : String) {v : Value} (h : v.Keeps ok) :
    Alike ok (store name v) (store name v) fun _ => True := by
  unfold Eval.store
  refine bind (find? name) fun b? _ => ?_
  split
  · refine modify fun s hs => ⟨hs.scope, fun u hu => ?_, hs.this, hs.aliases⟩
    rcases Array.mem_or_eq_of_mem_setIfInBounds hu with hu | rfl
    · exact hs.cells u hu
    · exact h
  · exact modify fun s hs => ⟨keeps_rebind name h.own hs.scope, hs.cells, hs.this, hs.aliases⟩

/-- So may a variable. -/
theorem keeps_replaceFirst {b : Binding} (h : b.slot.Keeps ok) {scope : List Binding}
    (hscope : ∀ b ∈ scope, b.slot.Keeps ok) :
    ∀ c ∈ Eval.bind.replaceFirst b scope, c.slot.Keeps ok := by
  induction scope with
  | nil => exact hscope
  | cons c scope ih =>
    obtain ⟨hc, hrest⟩ := List.forall_mem_cons.1 hscope
    rw [Eval.bind.replaceFirst]
    split_ifs
    · exact List.forall_mem_cons.2 ⟨h, hrest⟩
    · exact List.forall_mem_cons.2 ⟨hc, ih hrest⟩

/-- Binding a variable, in front of the others or in the place of one of the same name. -/
theorem bindVariable (outer : Nat) (name : String) (constant : Bool) {v : Value} (h : v.Keeps ok) :
    Alike ok (Eval.bind outer name constant v) (Eval.bind outer name constant v) fun _ => True := by
  unfold Eval.bind
  refine modify fun s hs => ?_
  simp only
  split_ifs
  · exact ⟨keeps_replaceFirst h.own hs.scope, hs.cells, hs.this, hs.aliases⟩
  · exact ⟨List.forall_mem_cons.2 ⟨h, hs.scope⟩, hs.cells, hs.this, hs.aliases⟩

theorem push (name : String) {v : Value} (h : v.Keeps ok) :
    Alike ok (push name v) (push name v) fun _ => True :=
  modify fun _ hs => ⟨List.forall_mem_cons.2 ⟨h, hs.scope⟩, hs.cells, hs.this, hs.aliases⟩

/-- A variable that is captured moves into a cell with the value it has. -/
theorem share? (name : String) : Alike ok (share? name) (share? name) fun _ => True := by
  unfold Eval.share?
  refine bind (find? name) fun b? hb => ?_
  split
  · exact pure trivial
  · exact pure trivial
  · rename_i v
    refine bind get fun s _ => bind (modify fun s hs => ⟨?_, fun u hu => ?_, hs.this, hs.aliases⟩)
      fun _ _ => pure trivial
    · exact keeps_rebind name Slot.keeps_shared hs.scope
    · rcases Array.mem_push.1 hu with hu | rfl
      · exact hs.cells u hu
      · exact hb _ rfl

/-- A block goes alike if what is in it does. -/
theorem inBlock (h : Alike ok step step' post) :
    Alike ok (inBlock step) (inBlock step') post := by
  intro s hs
  obtain ⟨heq, hres⟩ := h s hs
  simp only [Eval.inBlock, ← heq, true_and]
  cases hr : step s with
  | ok a t =>
    rw [hr] at hres
    exact ⟨hs.leaveTo hres.1, hres.2⟩
  | error e t =>
    rw [hr] at hres
    exact ⟨hs.leaveTo hres.1, hres.2⟩

/-- A function goes alike if its body does, from a scope that keeps to what is given. -/
theorem inFunction {scope : List Binding} {this : Option Value} {body body' : Eval Value}
    (hscope : ∀ b ∈ scope, b.slot.Keeps ok) (hthis : ∀ v ∈ this, v.Keeps ok)
    (h : Alike ok body body' (Value.Keeps ok)) :
    Alike ok (inFunction scope this body) (inFunction scope this body') (PairKeeps ok) := by
  intro s hs
  obtain ⟨heq, hres⟩ := h _ (⟨hscope, hs.cells, hthis, hs.aliases⟩ :
    Machine.Keeps ok { s with scope := scope, this := this, level := s.level + 1 })
  simp only [Eval.inFunction, ← heq, true_and]
  split
  · rename_i v t hr
    rw [hr] at hres
    exact ⟨hs.returnTo hres.1, hres.2, hres.1.this⟩
  · rename_i v t hr
    rw [hr] at hres
    exact ⟨hs.returnTo hres.1, hres.2, hres.1.this⟩
  · rename_i e t _ hr
    rw [hr] at hres
    exact ⟨hs.returnTo hres.1, hres.2⟩

/-- A failure that is caught was raised alike. -/
theorem attempt {body body' : Eval Value} (h : Alike ok body body' (Value.Keeps ok)) :
    Alike ok (attempt body) (attempt body') fun r =>
      match r with
      | .ok v => v.Keeps ok
      | .error f => f.cause.Keeps ok := by
  intro s hs
  obtain ⟨heq, hres⟩ := h s hs
  simp only [Eval.attempt, ← heq, true_and]
  split
  all_goals
    rename_i hr
    rw [hr] at hres
    exact hres

/-- A round of a loop ends alike, with the value it breaks out with or without. -/
theorem oneRound {body body' : Eval Value} (h : Alike ok body body' (Value.Keeps ok)) :
    Alike ok (oneRound body) (oneRound body') fun r => ∀ v ∈ r, v.Keeps ok := by
  intro s hs
  obtain ⟨heq, hres⟩ := h s hs
  simp only [Eval.oneRound, ← heq, true_and]
  split <;> rename_i hr <;> rw [hr] at hres
  · exact ⟨hres.1, fun _ => keeps_none⟩
  · exact ⟨hres.1, fun _ h => Option.some.inj h ▸ hres.2⟩
  · exact ⟨hres.1, fun _ => keeps_none⟩
  · exact hres

theorem mapM {f : α → Eval β} (h : ∀ a, Alike ok (f a) (f a) fun _ => True) (as : List α) :
    Alike ok (as.mapM f) (as.mapM f) fun _ => True := by
  induction as with
  | nil => exact pure trivial
  | cons a as ih =>
    rw [List.mapM_cons]
    exact bind (h a) fun _ _ => bind ih fun _ _ => pure trivial

/-- A loop goes alike if each of its rounds does, from states of the loop that `inv` is true of. -/
theorem iterate (inv : σ → Prop) {round round' : σ → Eval (σ ⊕ Value)}
    (h : ∀ a, inv a → Alike ok (round a) (round' a) (Sum.elim inv (Value.Keeps ok))) (n : Nat) :
    ∀ a, inv a → Alike ok (iterate round n a) (iterate round' n a) (Value.Keeps ok) := by
  induction n with
  | zero => exact fun _ _ => endless
  | succ n ih =>
    intro a ha
    refine bind (h a ha) fun r hr => ?_
    cases r with
    | inl b => exact ih b hr
    | inr v => exact pure hr

end Alike

end Eval

end LiveScene.Script
