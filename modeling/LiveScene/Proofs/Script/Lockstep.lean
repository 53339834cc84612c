import LiveScene.Proofs.Script.Tokens
import LiveScene.Script.Parser

/-!
# Parsers in lockstep

The limits of a parser only ever refuse. So two parsers of one script with
limits of their own go in lockstep (`Lockstep`): either step leads both to the
same, or both refuse the script, or one of them stops at a limit of its own
that is tighter than the other's (`ParseLimits.Stops`).

They may part at a token that one of the lexers refuses. A step that looks at
the next token does so in one of three ways: it stops at a fault of the lexer
(`Lockstep.peek_strict`), it takes none of the tokens that might be refused
(`Lockstep.peek_refusing`), or it goes on the same for all of them
(`Lockstep.peek_uniform`).
-/

namespace LiveScene.Script

namespace ParseLimits

/-- The options of the lexer. -/
def lexOptions (l : ParseLimits) : LexOptions := ⟨l.maxString, l.refuseEval⟩

/-- The faults of stopping at a limit where a parser with other limits goes on. -/
inductive Stops (l l' : ParseLimits) : ParseFault → Prop
  | token {f : LexFault} (h : l.lexOptions.Refuses l'.lexOptions f) : l.Stops l' (.lexical f)
  | array (h : Tighter l.maxArray l'.maxArray) :
    l.Stops l' (.literalTooLarge "Size of array literal" l.maxArray)
  | map (h : Tighter l.maxMap l'.maxMap) :
    l.Stops l' (.literalTooLarge "Number of properties in object map literal" l.maxMap)
  | depth (h : Tighter l.maxDepth l'.maxDepth) : l.Stops l' .tooDeep
  | functionDepth (h : Tighter l.maxFunctionDepth l'.maxFunctionDepth) : l.Stops l' .tooDeep

theorem Stops.of_depthIn {l l' : ParseLimits} {s : Setting}
    (h : Tighter (l.depthIn s) (l'.depthIn s)) : l.Stops l' .tooDeep := by
  unfold depthIn at h
  split_ifs at h
  · exact .functionDepth h
  · exact .depth h

end ParseLimits

/-- Two states that differ in their limits, and in their tokens only as far as the limits of the
lexer go. -/
inductive ParseState.Alike (l l' : ParseLimits) : ParseState → ParseState → Prop
  | mk {ts ts' : List Located} (scope : List (String × Bool)) (outside : List Ident)
    (functions : List (String × Nat)) (h : TokensAlike l.lexOptions l'.lexOptions ts ts') :
    Alike l l' ⟨l, ts, scope, outside, functions⟩ ⟨l', ts', scope, outside, functions⟩

/-- The state behind the next token; the end stays. -/
def ParseState.behind (s : ParseState) : ParseState :=
  match s.rest with
  | _ :: r :: rest => { s with rest := r :: rest }
  | _ => s

/-- The token ahead is the same in both states. -/
inductive Ahead (o o' : LexOptions) : Located → List Located → List Located → Prop
  | nil : Ahead o o' (.eof, .start) [] []
  | cons (t : Located) {ts ts' : List Located} (h : TokensAlike o o' ts ts') :
    Ahead o o' t (t :: ts) (t :: ts')

/-- Both look at the token that is given. -/
theorem headD_of_ahead {o o' : LexOptions} {t : Located} {ts ts' : List Located}
    (h : Ahead o o' t ts ts') :
    ts.headD (.eof, .start) = t ∧ ts'.headD (.eof, .start) = t := by
  cases h <;> exact ⟨rfl, rfl⟩

namespace ParseState.Alike

variable {l l' : ParseLimits} {s s' : ParseState} {t : Located}

/-- The states have the limits that they are said to have. -/
theorem limits_eq (h : s.Alike l l' s') : s.limits = l ∧ s'.limits = l' := by
  cases h
  exact ⟨rfl, rfl⟩

/-- Being alike goes both ways. -/
theorem symm (h : s.Alike l l' s') : s'.Alike l' l s := by
  obtain ⟨scope, outside, functions, h⟩ := h
  exact .mk scope outside functions h.symm

/-- Behind a token that is the same for both, they are alike again. -/
theorem behind (h : s.Alike l l' s') (ha : Ahead l.lexOptions l'.lexOptions t s.rest s'.rest) :
    s.behind.Alike l l' s'.behind := by
  obtain ⟨scope, outside, functions, hts⟩ := h
  cases ha with
  | nil => exact .mk _ _ _ hts
  | cons t h =>
    cases h with
    | nil => exact .mk _ _ _ hts
    | cons u h => exact .mk _ _ _ (.cons u h)
    | left p ts ts' hf ht => exact .mk _ _ _ (.left p ts ts' hf ht)
    | right p ts ts' hf ht => exact .mk _ _ _ (.right p ts ts' hf ht)

end ParseState.Alike

/-- The results of one step from two states. -/
inductive Agree (l l' : ParseLimits) {α : Type} :
    Except ParseError (α × ParseState) → Except ParseError (α × ParseState) → Prop
  | ok (a : α) {s s' : ParseState} (h : s.Alike l l' s') : Agree l l' (.ok (a, s)) (.ok (a, s'))
  | refused (e e' : ParseError) : Agree l l' (.error e) (.error e')
  | left {e : ParseError} (r : Except ParseError (α × ParseState)) (h : l.Stops l' e.fault) :
    Agree l l' (.error e) r
  | right {e : ParseError} (r : Except ParseError (α × ParseState)) (h : l'.Stops l e.fault) :
    Agree l l' r (.error e)

theorem Agree.symm {α : Type} {l l' : ParseLimits} {r r' : Except ParseError (α × ParseState)}
    (h : Agree l l' r r') : Agree l' l r' r := by
  cases h with
  | ok a h => exact .ok a h.symm
  | refused e e' => exact .refused e' e
  | left _ h => exact .right _ h
  | right _ h => exact .left _ h

/-- A step leads two parsers with any limits of their own to the same, as long as none of them
stops at a limit. The token ahead may be given. -/
def Lockstep {α : Type} (ahead : Option Located) (step : Parse α) : Prop :=
  ∀ ⦃l l' : ParseLimits⦄ ⦃s s' : ParseState⦄, s.Alike l l' s' →
    (∀ t ∈ ahead, Ahead l.lexOptions l'.lexOptions t s.rest s'.rest) →
    Agree l l' (step s) (step s')

/-- A step fails from every state. -/
def Refusing {α : Type} (step : Parse α) : Prop := ∀ s, ∃ e, step s = .error e

/-- A step fails from every state with the fault of a token. -/
def StopsAt {α : Type} (f : LexFault) (step : Parse α) : Prop :=
  ∀ s, ∃ p, step s = .error ⟨.lexical f, p⟩

/-- A token that may be refused, to stand for all of them. -/
def parting : Located := (.bad .unterminated, .start)

namespace Lockstep

open Parse (peek next)

variable {α β : Type} {a : Option Located} {t : Located} {step other : Parse α}
  {rest : α → Parse β} {k : Located → Parse α}

/-! ### Steps one after the other -/

/-- One step after the other, written out. -/
theorem run_bind (s : ParseState) :
    (step >>= rest) s = (step s).bind fun r => rest r.1 r.2 := rfl

theorem pure (x : α) : Lockstep a (Pure.pure x : Parse α) := fun _ _ _ _ hs _ => .ok x hs

theorem fail (f : ParseFault) (p : Place) : Lockstep a (Parse.fail f p : Parse α) :=
  fun _ _ _ _ _ _ => .refused _ _

/-- What goes in lockstep for any token ahead does so for a given one. -/
theorem weaken (h : Lockstep none step) : Lockstep a step := fun _ _ _ _ hs _ => h hs nofun

/-- Steps go in lockstep one after the other; which token is ahead of the second is not known.
-/
theorem bind (h : Lockstep a step) (hr : ∀ x, Lockstep none (rest x)) :
    Lockstep a (step >>= rest) := by
  intro l l' s s' hs ha
  have hstep := h hs ha
  rw [run_bind, run_bind]
  revert hstep
  generalize step s = r
  generalize step s' = r'
  rintro (⟨x, hs⟩ | ⟨e, e'⟩ | ⟨_, h⟩ | ⟨_, h⟩)
  · exact hr x hs nofun
  · exact .refused e e'
  · exact .left _ h
  · exact .right _ h

theorem pureThen {x : α} (h : Lockstep a (rest x)) : Lockstep a (Pure.pure x >>= rest) :=
  fun _ _ _ _ hs ha => h hs ha

theorem failThen (f : ParseFault) (p : Place) : Lockstep a (Parse.fail f p >>= rest) :=
  fun _ _ _ _ _ _ => .refused _ _

/-- A fault at a token is that of the token, if that is one the lexer refused. -/
theorem failAt (t : Located) (f : ParseFault) : Lockstep a (Parse.failAt t f : Parse α) := by
  unfold Parse.failAt
  split
  · exact fail _ _
  · exact fail _ _

theorem failAtThen (t : Located) (f : ParseFault) : Lockstep a (Parse.failAt t f >>= rest) := by
  unfold Parse.failAt
  split
  · exact failThen _ _
  · exact failThen _ _

/-- The condition is the same for both, so each branch may make use of it. -/
theorem ite {c : Prop} [Decidable c] (hs : c → Lockstep a step) (ho : ¬c → Lockstep a other) :
    Lockstep a (if c then step else other) := by
  split_ifs with h
  · exact hs h
  · exact ho h

/-- A change of what the parser knows. -/
theorem modify {f : ParseState → ParseState}
    (h : ∀ ⦃l l' s s'⦄, ParseState.Alike l l' s s' → (f s).Alike l l' (f s')) :
    Lockstep a (modify f : Parse PUnit) := fun _ _ _ _ hs _ => .ok _ (h hs)

/-- A step that goes by what the parser knows apart from the script and the limits. -/
theorem get {k : ParseState → Parse α}
    (hk : ∀ l l' ts ts' scope outside functions,
      k ⟨l, ts, scope, outside, functions⟩ = k ⟨l', ts', scope, outside, functions⟩)
    (h : ∀ s, Lockstep a (k s)) : Lockstep a (MonadState.get >>= k) := by
  intro l l' s s' hs ha
  have hstep := h s hs ha
  obtain @⟨ts, ts', scope, outside, functions, -⟩ := hs
  show Agree l l' (k _ _) (k _ _)
  rwa [← hk l l' ts ts']

/-- Names that are bound in a scope are gone behind it, in both. -/
theorem inScope (h : Lockstep none step) : Lockstep a (Parse.inScope step) := by
  unfold Parse.inScope
  refine get (fun _ _ _ _ _ _ _ => rfl) fun s => bind h.weaken fun x => ?_
  exact bind (modify fun _ _ _ _ ⟨_, _, _, h⟩ => .mk _ _ _ h) fun _ => pure x

/-- A step for each of several. -/
theorem mapM {γ : Type} {f : γ → Parse α} (h : ∀ x, Lockstep none (f x)) (xs : List γ) :
    Lockstep a (xs.mapM f) := by
  refine weaken ?_
  induction xs with
  | nil => exact pure []
  | cons x xs ih =>
    rw [List.mapM_cons]
    exact bind (h x) fun y => bind ih fun ys => pure (y :: ys)

theorem forM {γ : Type} {f : γ → Parse PUnit} (h : ∀ x, Lockstep none (f x)) (xs : List γ) :
    Lockstep a (xs.forM f) := by
  refine weaken ?_
  induction xs with
  | nil => exact pure _
  | cons x xs ih => exact bind (h x) fun _ => ih

/-! ### The next token -/

theorem run_peek (s : ParseState) : peek s = .ok (s.rest.headD (.eof, .start), s) := by
  unfold peek
  obtain ⟨l, ts, scope, outside, functions⟩ := s
  cases ts <;> rfl

theorem run_next (s : ParseState) : next s = .ok (s.rest.headD (.eof, .start), s.behind) := by
  obtain ⟨l, ts, scope, outside, functions⟩ := s
  cases ts <;> rfl

/-- A look at the token that is known to be ahead. -/
theorem peek_ahead (h : Lockstep (some t) (k t)) : Lockstep (some t) (peek >>= k) := by
  intro l l' s s' hs ha
  obtain ⟨hhead, hhead'⟩ := headD_of_ahead (ha t rfl)
  rw [run_bind, run_bind, run_peek, run_peek, hhead, hhead']
  exact h hs ha

/-- Taking the token that is known to be ahead; which one is behind it is not known. -/
theorem next_ahead (h : Lockstep none (k t)) : Lockstep (some t) (next >>= k) := by
  intro l l' s s' hs ha
  obtain ⟨hhead, hhead'⟩ := headD_of_ahead (ha t rfl)
  rw [run_bind, run_bind, run_next, run_next, hhead, hhead']
  exact h (hs.behind (ha t rfl)) nofun

/-- A step goes well if it does with the same token ahead, and with one that is refused under a
limit. -/
theorem of_ahead (hsame : ∀ t, Lockstep (some t) step)
    (hpart : ∀ ⦃l l' f p t ts ts' scope outside functions⦄,
      l.lexOptions.Refuses l'.lexOptions f → t.1.Refusable →
      TokensAlike l.lexOptions l'.lexOptions ((.bad f, p) :: ts) (t :: ts') →
      Agree l l' (step ⟨l, (.bad f, p) :: ts, scope, outside, functions⟩)
        (step ⟨l', t :: ts', scope, outside, functions⟩)) : Lockstep a step := by
  rintro l l' s s' hs -
  have halike := hs
  obtain ⟨scope, outside, functions, hts⟩ := hs
  cases hts with
  | nil => exact hsame _ halike (by rintro _ ⟨⟩; exact .nil)
  | cons t h => exact hsame t halike (by rintro _ ⟨⟩; exact .cons t h)
  | left p ts ts' hf ht => exact hpart hf ht (.left p ts ts' hf ht)
  -- the limits are any, so this is the case before with the parsers exchanged
  | right p ts ts' hf ht => exact (hpart hf ht (.left p ts' ts hf ht)).symm

/-- A look at a token goes well if it does for the same token, and for one that is refused under
a limit. -/
theorem peek_of (hsame : ∀ t, Lockstep (some t) (k t))
    (hpart : ∀ ⦃l l' s s' f p⦄ ⦃t : Located⦄, s.Alike l l' s' →
      l.lexOptions.Refuses l'.lexOptions f → t.1.Refusable →
      Agree l l' (k (.bad f, p) s) (k t s')) : Lockstep a (peek >>= k) :=
  of_ahead (fun t => peek_ahead (hsame t)) fun _ _ _ _ _ _ _ _ _ _ hf ht h =>
    hpart (.mk _ _ _ h) hf ht

/-- So does taking it. -/
theorem next_of (hsame : ∀ t, Lockstep none (k t))
    (hpart : ∀ ⦃l l' s s' f p⦄ ⦃t : Located⦄, l.lexOptions.Refuses l'.lexOptions f →
      t.1.Refusable → Agree l l' (k (.bad f, p) s) (k t s')) : Lockstep a (next >>= k) := by
  refine of_ahead (fun t => next_ahead (hsame t)) fun l l' f p t ts ts' _ _ _ hf ht _ => ?_
  rw [run_bind, run_bind, run_next, run_next]
  exact hpart hf ht

/-- A step that stops at a token that was refused. -/
theorem peek_strict (hbad : ∀ f p, StopsAt f (k (.bad f, p)))
    (hsame : ∀ t, Lockstep (some t) (k t)) : Lockstep a (peek >>= k) := by
  refine peek_of hsame fun l l' s s' f p t _ hf _ => ?_
  obtain ⟨q, heq⟩ := hbad f p s
  rw [heq]
  exact .left _ (.token hf)

/-- The same for one that takes the token. -/
theorem next_strict (hbad : ∀ f p, StopsAt f (k (.bad f, p)))
    (hsame : ∀ t, Lockstep none (k t)) : Lockstep a (next >>= k) := by
  refine next_of hsame fun l l' s s' f p t hf _ => ?_
  obtain ⟨q, heq⟩ := hbad f p s
  rw [heq]
  exact .left _ (.token hf)

/-- A step that refuses every token that may be refused, with a fault of its own. -/
theorem peek_refusing (hrefusing : ∀ t p, t.Refusable → Refusing (k (t, p)))
    (hsame : ∀ t, Lockstep (some t) (k t)) : Lockstep a (peek >>= k) := by
  refine peek_of hsame fun l l' s s' f p t _ hf ht => ?_
  obtain ⟨e, heq⟩ := hrefusing (.bad f) p (.bad f) s
  obtain ⟨e', heq'⟩ := hrefusing t.1 t.2 ht s'
  rw [heq, heq']
  exact .refused e e'

/-- The same for one that takes the token. -/
theorem next_refusing (hrefusing : ∀ t p, t.Refusable → Refusing (k (t, p)))
    (hsame : ∀ t, Lockstep none (k t)) : Lockstep a (next >>= k) := by
  refine next_of hsame fun l l' s s' f p t hf ht => ?_
  obtain ⟨e, heq⟩ := hrefusing (.bad f) p (.bad f) s
  obtain ⟨e', heq'⟩ := hrefusing t.1 t.2 ht s'
  rw [heq, heq']
  exact .refused e e'

/-- A step that goes on the same for all tokens that may be refused. -/
theorem peek_uniform (hk : ∀ t p, t.Refusable → k (t, p) = k parting)
    (hpart : Lockstep none (k parting))
    (hsame : ∀ t : Located, Lockstep (some t) (k parting) → Lockstep (some t) (k t)) :
    Lockstep a (peek >>= k) := by
  refine peek_of (fun t => hsame t hpart.weaken) fun l l' s s' f p t hs _ ht => ?_
  rw [hk (.bad f) p (.bad f), hk t.1 t.2 ht]
  exact hpart hs nofun

/-- The same for one that is refused and for one that is not, of which only the latter is known
to be ahead. -/
theorem peek_either (hk : ∀ t p, t.Refusable → k (t, p) = k parting)
    (h : ∀ t b, (¬t.1.Refusable → b = some t) → Lockstep b (k t)) : Lockstep a (peek >>= k) :=
  peek_uniform hk (h parting none fun hne => absurd (.bad _) hne) fun t _ => h t _ fun _ => rfl

/-- What follows takes any token. -/
theorem peek_any (hk : ∀ t p, t.Refusable → k (t, p) = k parting)
    (h : ∀ t, Lockstep none (k t)) : Lockstep a (peek >>= k) :=
  peek_uniform hk (h parting) fun t _ => (h t).weaken

/-- A token that may be refused ends the step, whichever it is. -/
theorem peek_ending {x : α} (hk : ∀ t p, t.Refusable → k (t, p) = Pure.pure x)
    (hsame : ∀ t, Lockstep (some t) (k t)) : Lockstep a (peek >>= k) := by
  have hpart : k parting = Pure.pure x := hk _ _ (.bad _)
  refine peek_uniform (fun t p ht => (hk t p ht).trans hpart.symm) ?_ fun t _ => hsame t
  rw [hpart]
  exact pure x

/-- A token that may be refused is passed or is a fault, whichever it is. -/
theorem peek_orFail (c : Bool) (f : ParseFault)
    (hk : ∀ t p, t.Refusable → k (t, p) = if c then step else Parse.failAt (t, p) f)
    (hstep : Lockstep none step) (hsame : ∀ t, Lockstep (some t) (k t)) :
    Lockstep a (peek >>= k) := by
  refine peek_of hsame fun l l' s s' g p t hs hg ht => ?_
  rw [hk (.bad g) p (.bad g), hk t.1 t.2 ht]
  cases c with
  | true => exact hstep hs nofun
  | false => exact .left _ (.token hg)

/-- A failure at the place of the next token. -/
theorem failHere (f : ParseFault) :
    Lockstep a (peek >>= fun t => Parse.fail f t.2 : Parse α) :=
  peek_refusing (fun _ _ _ _ => ⟨_, rfl⟩) fun _ => fail _ _

/-- A token that is never refused is taken by both or by none. -/
theorem take {u : Token} (hu : ¬u.Refusable) : Lockstep a (Parse.take u) := by
  have hne : ∀ t : Token, t.Refusable → t ≠ u := fun t ht h => hu (h ▸ ht)
  refine peek_uniform (fun t p ht => ?_) ?_ fun t _ => ?_
  · exact (if_neg (hne t ht)).trans (if_neg (hne _ (.bad _))).symm
  · exact ite (fun h => absurd h (hne _ (.bad _))) fun _ => pure false
  · exact ite (fun _ => next_ahead (pure true)) fun _ => pure false

/-- Any other token is left. -/
theorem run_take_of_ne {u : Token} (s : ParseState)
    (h : (s.rest.headD (.eof, .start)).1 ≠ u) : Parse.take u s = .ok (false, s) := by
  unfold Parse.take
  rw [run_bind, run_peek]
  show (if _ then _ else _ : Parse Bool) s = _
  rw [if_neg h]
  rfl

/-- A token that has to be there; its place is that of the fault. -/
theorem expect {u : Token} {f : ParseFault} {after : PUnit → Parse α} (hu : ¬u.Refusable)
    (h : Lockstep none (after ())) :
    Lockstep a (peek >>= fun t => Parse.take u >>= fun b =>
      if (!b) = true then Parse.fail f t.2 >>= after else after ()) := by
  refine of_ahead (fun t => peek_ahead (bind (take hu) fun b => ?_)) ?_
  · exact ite (fun _ => failThen _ _) fun _ => h
  · intro l l' g p t ts ts' scope outside functions _ ht _
    have hne : t.1 ≠ u := fun heq => hu (heq ▸ ht)
    have hbad : (.bad g : Token) ≠ u := fun heq => hu (heq ▸ .bad g)
    rw [run_bind, run_bind, run_peek, run_peek]
    show Agree l l' ((Parse.take u _).bind _) ((Parse.take u _).bind _)
    rw [run_take_of_ne ⟨l, (.bad g, p) :: ts, scope, outside, functions⟩ hbad,
      run_take_of_ne ⟨l', t :: ts', scope, outside, functions⟩ hne]
    exact .refused _ _

/-- A name stands where it has to, or both parsers fail. -/
theorem name : Lockstep a Parse.name := by
  refine next_strict (fun f p s => ⟨p, rfl⟩) fun t => ?_
  split
  · exact pure _
  · exact ite (fun _ => fail _ _) fun _ => fail _ _
  · exact failAt _ _

theorem bindName (n : String) (constant : Bool) : Lockstep a (Parse.bind n constant) :=
  modify fun _ _ _ _ ⟨_, _, _, h⟩ => .mk _ _ _ h

/-- Using a name looks up the scopes, which are the same for both. -/
theorem useName (n : Ident) : Lockstep a (Parse.useName n) := by
  refine modify ?_
  rintro l l' _ _ ⟨scope, outside, functions, h⟩
  dsimp only
  split_ifs
  · exact .mk _ _ _ h
  · exact .mk _ _ _ h

/-! ### Limits of the parser -/

/-- A check of the size of a literal, which fails at a limit only. -/
theorem checkSize (limit : ParseLimits → Nat) {what : String} {count : Nat}
    {after : PUnit → Parse α}
    (hstop : ∀ l l', Tighter (limit l) (limit l') → l.Stops l' (.literalTooLarge what (limit l)))
    (h : Lockstep a step) :
    Lockstep a (MonadState.get >>= fun st =>
      if limit st.limits ≠ 0 ∧ limit st.limits ≤ count then
        peek >>= fun t => Parse.fail (.literalTooLarge what (limit st.limits)) t.2 >>= after
      else step) := by
  intro l l' s s' hs ha
  have hstep := h hs ha
  obtain ⟨hl, hl'⟩ := hs.limits_eq
  have hrun (s : ParseState) : (MonadState.get >>= fun st =>
      if limit st.limits ≠ 0 ∧ limit st.limits ≤ count then
        peek >>= fun t => Parse.fail (.literalTooLarge what (limit st.limits)) t.2 >>= after
      else step) s = if limit s.limits ≠ 0 ∧ limit s.limits ≤ count then
        .error ⟨.literalTooLarge what (limit s.limits), (s.rest.headD (.eof, .start)).2⟩
      else step s := by
    show (if _ then _ else _ : Parse α) s = _
    split_ifs
    · rw [run_bind, run_peek]
      rfl
    · rfl
  rw [hrun, hrun, hl, hl']
  split_ifs with hover hover' hover'
  · exact .refused _ _
  · exact .left _ (hstop _ _ (tighter_of_reached hover hover'))
  · exact .right _ (hstop _ _ (tighter_of_reached hover' hover))
  · exact hstep

/-- Going deeper, written out. -/
theorem run_deeper (s : Setting) (st : ParseState) :
    Parse.deeper s st =
      if st.limits.depthIn s ≠ 0 ∧ st.limits.depthIn s < s.level + 1 then
        .error ⟨.tooDeep, (st.rest.headD (.eof, .start)).2⟩
      else .ok ({ s with level := s.level + 1 }, st) := by
  unfold Parse.deeper
  rw [run_bind, run_peek]
  show (if _ then Parse.fail .tooDeep _ else _ : Parse Setting) st = _
  split_ifs
  · rfl
  · rfl

/-- Going deeper takes no token, and fails below a limit only. -/
theorem deeper {s : Setting} {k : Setting → Parse α} (h : ∀ s, Lockstep a (k s)) :
    Lockstep a (Parse.deeper s >>= k) := by
  intro l l' st st' hs ha
  obtain ⟨hl, hl'⟩ := hs.limits_eq
  rw [run_bind, run_bind, run_deeper, run_deeper, hl, hl']
  split_ifs with hover hover' hover'
  · exact .refused _ _
  · exact .left _ (.of_depthIn (tighter_of_exceeded hover hover'))
  · exact .right _ (.of_depthIn (tighter_of_exceeded hover' hover))
  · exact h _ hs ha

end Lockstep

/-! ## Checks of expressions -/

namespace Lockstep

variable {a : Option Located}

/-- The checks of an expression behind its parts look at neither script nor limits. -/
theorem ensureBool (e : Expr) : Lockstep a (ensureBool e) := by
  unfold Script.ensureBool
  split
  · exact pure e
  · exact pure e
  · exact fail _ _

theorem ensureIterable (e : Expr) : Lockstep a (ensureIterable e) := by
  unfold Script.ensureIterable
  split
  · exact pure _
  · exact pure _
  · exact pure _
  · split
    · exact pure _
    · exact fail _ _

/-- A token that may be refused does not start a block. -/
theorem ensureNoBlock : Lockstep a ensureNoBlock := by
  refine peek_any (fun t p ht => ?_) fun t => ?_
  · cases ht <;> rfl
  · exact ite (fun _ => fail _ _) fun _ => pure _

/-- Nor does it assign. -/
theorem ensureNoAssignment : Lockstep a ensureNoAssignment := by
  refine peek_any (fun t p ht => ?_) fun t => ?_
  · cases ht <;> rfl
  · exact ite (fun _ => fail _ _) fun _ => pure _

theorem checkIndex (base idx : Expr) : Lockstep a (checkIndex base idx) := by
  unfold Script.checkIndex
  extract_lets unindexable wrong notIndexable
  have hwrong : ∀ why, Lockstep a (wrong why) := fun _ => fail _ _
  have hnot : Lockstep a notIndexable := fail _ _
  split
  case h_1 =>
    refine ite (fun _ => hnot) fun _ => ?_
    split
    · exact hwrong _
    · exact pure _
  case h_2 | h_3 =>
    refine ite (fun _ => hnot) fun _ => ?_
    split
    · exact hwrong _
    · exact hwrong _
    · exact hwrong _
    · exact hnot
    · exact pure _
  case h_10 => exact pure _
  all_goals exact hwrong _

theorem makeBinary (op : Token) (lhs rhs : Expr) (p : Place) :
    Lockstep a (makeBinary op lhs rhs p) := by
  unfold Script.makeBinary
  split
  · exact bind (ensureBool _) fun _ => bind (ensureBool _) fun _ => pure _
  · exact bind (ensureBool _) fun _ => bind (ensureBool _) fun _ => pure _
  · exact pure _
  · exact pure _
  · exact pure _
  · exact pure _

theorem makeAssignment (op : String) (target value : Expr) (p : Place) :
    Lockstep a (makeAssignment op target value p) := by
  unfold Script.makeAssignment
  split
  case h_1 =>
    refine get (fun _ _ _ _ _ _ _ => rfl) fun s => ?_
    split
    · exact fail _ _
    · exact pure _
  case h_2 | h_3 => exact pure _
  case h_4 | h_5 | h_6 =>
    split
    · exact fail _ _
    · split
      · exact pure _
      · exact pure _
      · exact fail _ _
  all_goals exact ite (fun _ => fail _ _) fun _ => fail _ _

/-- The value of a case is a literal, or both parsers fail. -/
theorem caseValue (e : Expr) : Lockstep a (caseValue e) := by
  unfold Script.caseValue
  split
  · exact pure _
  · exact pure _
  · exact pure _
  · exact fail _ _

end Lockstep

end LiveScene.Script
