import Mathlib.Tactic.SplitIfs
import LiveScene.Script.Lexer

/-!
# Tokens under other options

The options of the lexer only ever refuse: they bound the length of strings
and set the word `eval` aside. So the tokens of a script under two options
are the same up to a token that one of them refuses and the other does not
(`tokens_alike`).
-/

namespace LiveScene.Script

/-- A bound is there and below another one; 0 is no bound. -/
def Tighter (a b : Nat) : Prop := a ≠ 0 ∧ (b = 0 ∨ a < b)

/-- Of two bounds, one that is exceeded where the other is not is the tighter one. -/
theorem tighter_of_exceeded {a b n : Nat} (h : a ≠ 0 ∧ a < n) (h' : ¬(b ≠ 0 ∧ b < n)) :
    Tighter a b := by
  refine ⟨h.1, ?_⟩
  omega

/-- The same for bounds that are not to be reached. -/
theorem tighter_of_reached {a b n : Nat} (h : a ≠ 0 ∧ a ≤ n) (h' : ¬(b ≠ 0 ∧ b ≤ n)) :
    Tighter a b := by
  refine ⟨h.1, ?_⟩
  omega

namespace LexOptions

/-- What is refused under options and let pass under others. -/
inductive Refuses (o o' : LexOptions) : LexFault → Prop
  | string (h : Tighter o.maxString o'.maxString) : o.Refuses o' (.tooLong o.maxString)
  | eval (h : o.refuseEval = true) (h' : o'.refuseEval = false) :
    o.Refuses o' (.improperSymbol "eval" "reserved keyword 'eval' is disabled")

end LexOptions

/-- Tokens in whose place there may be a fault under other options. -/
inductive Token.Refusable : Token → Prop
  | char (c : Char) : Refusable (.char c)
  | str (s : String) : Refusable (.str s)
  | segment (s : String) : Refusable (.segment s)
  | eval : Refusable (.reserved "eval")
  | bad (f : LexFault) : Refusable (.bad f)

/-- The tokens of a script under two options: the same up to one that is refused under one of
them and not under the other. -/
inductive TokensAlike (o o' : LexOptions) : List Located → List Located → Prop
  | nil : TokensAlike o o' [] []
  | cons (t : Located) {ts ts' : List Located} (h : TokensAlike o o' ts ts') :
    TokensAlike o o' (t :: ts) (t :: ts')
  | left {f : LexFault} (p : Place) {t : Located} (ts ts' : List Located) (hf : o.Refuses o' f)
    (ht : t.1.Refusable) : TokensAlike o o' ((.bad f, p) :: ts) (t :: ts')
  | right {f : LexFault} (p : Place) {t : Located} (ts ts' : List Located) (hf : o'.Refuses o f)
    (ht : t.1.Refusable) : TokensAlike o o' (t :: ts) ((.bad f, p) :: ts')

namespace TokensAlike

variable {o o' : LexOptions} {ts ts' : List Located}

/-- Which of two lexers comes first makes no difference. -/
theorem symm (h : TokensAlike o o' ts ts') : TokensAlike o' o ts' ts := by
  induction h with
  | nil => exact .nil
  | cons t _ ih => exact .cons t ih
  | left p ts ts' hf ht => exact .right p ts' ts hf ht
  | right p ts ts' hf ht => exact .left p ts' ts hf ht

theorem ite {c : Prop} [Decidable c] {us us' : List Located} (ht : c → TokensAlike o o' ts ts')
    (hu : ¬c → TokensAlike o o' us us') :
    TokensAlike o o' (if c then ts else us) (if c then ts' else us') := by
  split_ifs with h
  · exact ht h
  · exact hu h

end TokensAlike

/-! ## Strings -/

/-- What reading a string gives under two options: the same, or under one of them the string is
refused that the other lets pass. -/
inductive TextAlike (o o' : LexOptions) :
    Except (LexFault × Place) TextPart → Except (LexFault × Place) TextPart → Prop
  | same (r : Except (LexFault × Place) TextPart) : TextAlike o o' r r
  | left {f : LexFault} (p : Place) (r : Except (LexFault × Place) TextPart)
    (h : o.Refuses o' f) : TextAlike o o' (.error (f, p)) r
  | right {f : LexFault} (p : Place) (r : Except (LexFault × Place) TextPart)
    (h : o'.Refuses o f) : TextAlike o o' r (.error (f, p))

namespace TextAlike

variable {o o' : LexOptions} {r r' s s' : Except (LexFault × Place) TextPart}

theorem ite {c : Prop} [Decidable c] (hr : TextAlike o o' r r') (hs : TextAlike o o' s s') :
    TextAlike o o' (if c then r else s) (if c then r' else s') := by
  split_ifs
  · exact hr
  · exact hs

/-- A bound on the size is exceeded for both, or for the one whose bound is tighter. -/
theorem checked (size : Nat) (p : Place) (h : TextAlike o o' r r') :
    TextAlike o o'
      (if o.maxString ≠ 0 ∧ o.maxString < size then .error (.tooLong o.maxString, p) else r)
      (if o'.maxString ≠ 0 ∧ o'.maxString < size then .error (.tooLong o'.maxString, p)
        else r') := by
  split_ifs with hlong hlong' hlong'
  · by_cases heq : o.maxString = o'.maxString
    · rw [heq]
      exact .same _
    · rcases Nat.lt_or_gt_of_ne heq with hlt | hlt
      · exact .left p _ (.string ⟨hlong.1, .inr hlt⟩)
      · exact .right p _ (.string ⟨hlong'.1, .inr hlt⟩)
  · exact .left p _ (.string (tighter_of_exceeded hlong hlong'))
  · exact .right p _ (.string (tighter_of_exceeded hlong' hlong))
  · exact h

end TextAlike

/-- A string is read alike, by induction on its characters; the bound is checked at each of
them. -/
theorem readText_alike (o o' : LexOptions) (f : TextForm) (start : Place) (state : EscapeState)
    (indent size : Nat) (done : List Char) (p : Place) (cs : List Char) :
    TextAlike o o' (readText o f start state indent size done p cs)
      (readText o' f start state indent size done p cs) := by
  cases cs with
  | nil =>
    cases state <;> simp only [readText]
    all_goals exact .checked size start (.same _)
  | cons c cs =>
    have ih := fun state indent size done p =>
      readText_alike o o' f start state indent size done p cs
    cases state with
    | hex read left value =>
      rw [readText, readText]
      cases Decimal.hexDigit? c with
      | none => exact .same _
      | some d =>
        refine .ite ?_ (ih ..)
        cases charOfCode? (value * 16 + d) with
        | none => exact .same _
        | some e => exact ih ..
    | opened =>
      rw [readText, readText]
      refine .checked size start (.ite (ih ..) (.ite (.ite (ih ..) (.same _)) ?_))
      cases letterEscape? f.quote c with
      | some e => exact ih ..
      | none =>
        cases hexWidth? c with
        | some width => exact ih ..
        | none => exact .same _
    | plain =>
      rcases cs with _ | ⟨d, rest⟩
      all_goals
        unfold readText
        refine .checked size start (.ite (.same _) (.ite ?_ (.ite (ih ..) (.ite (ih ..)
          (.ite (.ite (ih ..) (.same _)) (.ite (ih ..) (ih ..)))))))
      · exact .same _
      · exact .ite (readText_alike o o' f start ..) (.same _)
termination_by cs.length

/-! ## Words -/

/-- A token and another under two options: the same, or one is refused. -/
inductive TokenAlike (o o' : LexOptions) : Token → Token → Prop
  | same (t : Token) : TokenAlike o o' t t
  | left {f : LexFault} {t : Token} (hf : o.Refuses o' f) (ht : t.Refusable) :
    TokenAlike o o' (.bad f) t
  | right {f : LexFault} {t : Token} (hf : o'.Refuses o f) (ht : t.Refusable) :
    TokenAlike o o' t (.bad f)

/-- A reserved word is one for both, unless it is `eval` and just one of the lexers refuses
that. -/
theorem reservedToken_alike (o o' : LexOptions) (s : String) :
    TokenAlike o o' (reservedToken o s) (reservedToken o' s) := by
  unfold reservedToken
  cases symbolHint s with
  | some hint => exact .same _
  | none =>
    by_cases heval : s = "eval"
    · subst heval
      cases h : o.refuseEval <;> cases h' : o'.refuseEval
      · exact .same _
      · exact .right (.eval h' h) .eval
      · exact .left (.eval h h') .eval
      · exact .same _
    · simp only [heval, false_and, if_false]
      exact .same _

/-- A word is read alike. -/
theorem wordToken_alike (o o' : LexOptions) (s : String) :
    TokenAlike o o' (wordToken o s) (wordToken o' s) := by
  unfold wordToken
  split_ifs
  · exact .same _
  · exact reservedToken_alike o o' s
  · exact .same _
  · exact .same _

/-- The token at a place under two options: of one length and alike, if there is one. -/
inductive PlainAlike (o o' : LexOptions) :
    Option (Token × Nat) → Option (Token × Nat) → Prop
  | none : PlainAlike o o' none none
  | some {t t' : Token} (taken : Nat) (h : TokenAlike o o' t t') :
    PlainAlike o o' (some (t, taken)) (some (t', taken))

/-- Tokens apart from strings are read alike. -/
theorem plainToken?_alike (o o' : LexOptions) (afterOperand : Bool) (cs : List Char) :
    PlainAlike o o' (plainToken? o afterOperand cs) (plainToken? o' afterOperand cs) := by
  cases cs with
  | nil => exact .none
  | cons c rest =>
    unfold plainToken?
    dsimp only
    split_ifs
    · exact .some _ (.same _)
    · exact .some _ (.same _)
    · exact .some _ (wordToken_alike o o' _)
    · split
      · split_ifs <;> exact .some _ (.same _)
      · split
        · exact .some _ (.same _)
        · exact .some _ (reservedToken_alike o o' _)
        · exact .none

/-! ## Scripts -/

/-- The tokens of a string and of what is behind it, as far as the string can be read. -/
def textTokens (r : Except (LexFault × Place) TextPart) (behind : TextPart → List Located) :
    List Located :=
  match r with
  | .error (fault, p) => [(.bad fault, p), (.eof, p)]
  | .ok part => behind part

/-- The tokens of a string that an expression may be inserted into. -/
def stringTokens (o : LexOptions) (fuel : Nat) (braces : List Nat) (start : Place)
    (r : Except (LexFault × Place) TextPart) : List Located :=
  textTokens r fun part => match part.ending with
    | .closed =>
      (.str (String.ofList part.text), start) ::
        tokensFrom o fuel true braces part.place part.rest
    | .insertion =>
      (.segment (String.ofList part.text), start) ::
        tokensFrom o fuel false (0 :: braces) part.place part.rest

/-- The tokens of a character. -/
def charTokens (o : LexOptions) (fuel : Nat) (braces : List Nat) (start : Place)
    (r : Except (LexFault × Place) TextPart) : List Located :=
  textTokens r fun part => match part.text with
    | [c] => (.char c, start) :: tokensFrom o fuel true braces part.place part.rest
    | text => [(.bad (.malformedChar (String.ofList text)), start), (.eof, start)]

/-- The tokens start with one that may be refused. -/
def StartsRefusable (ts : List Located) : Prop := ∃ t us, ts = t :: us ∧ t.1.Refusable

/-- What is made of a string starts with a token that may be refused. -/
theorem startsRefusable_textTokens {behind : TextPart → List Located}
    (h : ∀ part, StartsRefusable (behind part)) (r : Except (LexFault × Place) TextPart) :
    StartsRefusable (textTokens r behind) := by
  cases r with
  | ok part => exact h part
  | error e => exact ⟨_, _, rfl, .bad e.1⟩

theorem startsRefusable_stringTokens (o : LexOptions) (fuel : Nat) (braces : List Nat)
    (start : Place) (r : Except (LexFault × Place) TextPart) :
    StartsRefusable (stringTokens o fuel braces start r) := by
  refine startsRefusable_textTokens (fun part => ?_) r
  split
  · exact ⟨_, _, rfl, .str _⟩
  · exact ⟨_, _, rfl, .segment _⟩

theorem startsRefusable_charTokens (o : LexOptions) (fuel : Nat) (braces : List Nat)
    (start : Place) (r : Except (LexFault × Place) TextPart) :
    StartsRefusable (charTokens o fuel braces start r) := by
  refine startsRefusable_textTokens (fun part => ?_) r
  split
  · exact ⟨_, _, rfl, .char _⟩
  · exact ⟨_, _, rfl, .bad _⟩

section

variable {o o' : LexOptions} {r r' : Except (LexFault × Place) TextPart} {fuel : Nat}

/-- Where strings are read alike, what is made of them is alike if it is for a string that can
be read. -/
theorem TextAlike.tokens {make make' : Except (LexFault × Place) TextPart → List Located}
    (h : TextAlike o o' r r') (hs : ∀ r, StartsRefusable (make r))
    (hs' : ∀ r, StartsRefusable (make' r))
    (hleft : ∀ f p, make (.error (f, p)) = [(.bad f, p), (.eof, p)])
    (hright : ∀ f p, make' (.error (f, p)) = [(.bad f, p), (.eof, p)])
    (hok : ∀ part, TokensAlike o o' (make (.ok part)) (make' (.ok part))) :
    TokensAlike o o' (make r) (make' r') := by
  cases h with
  | same r =>
    cases r with
    | ok part => exact hok part
    | error e =>
      rw [hleft, hright]
      exact .cons _ (.cons _ .nil)
  | left p r hf =>
    obtain ⟨t, us, heq, ht⟩ := hs' r'
    rw [hleft, heq]
    exact .left p _ _ hf ht
  | right p r hf =>
    obtain ⟨t, us, heq, ht⟩ := hs r
    rw [hright, heq]
    exact .right p _ _ hf ht

variable (ih : ∀ (afterOperand : Bool) (braces : List Nat) (p : Place) (cs : List Char),
  TokensAlike o o' (tokensFrom o fuel afterOperand braces p cs)
    (tokensFrom o' fuel afterOperand braces p cs))

include ih

/-- Strings give tokens that are alike. -/
theorem stringTokens_alike (braces : List Nat) (start : Place) (h : TextAlike o o' r r') :
    TokensAlike o o' (stringTokens o fuel braces start r)
      (stringTokens o' fuel braces start r') := by
  refine h.tokens (startsRefusable_stringTokens o fuel braces start)
    (startsRefusable_stringTokens o' fuel braces start) (fun _ _ => rfl) (fun _ _ => rfl) ?_
  rintro ⟨text, ending, place, rest⟩
  cases ending with
  | closed => exact .cons _ (ih ..)
  | insertion => exact .cons _ (ih ..)

/-- Characters give tokens that are alike. -/
theorem charTokens_alike (braces : List Nat) (start : Place) (h : TextAlike o o' r r') :
    TokensAlike o o' (charTokens o fuel braces start r) (charTokens o' fuel braces start r') := by
  refine h.tokens (startsRefusable_charTokens o fuel braces start)
    (startsRefusable_charTokens o' fuel braces start) (fun _ _ => rfl) (fun _ _ => rfl) ?_
  rintro ⟨text, ending, place, rest⟩
  match text with
  | [c] => exact .cons _ (ih ..)
  | [] | _ :: _ :: _ => exact .cons _ (.cons _ .nil)

end

/-- The lexers go alike from any place of the script, by induction on the fuel. -/
theorem tokensFrom_alike (o o' : LexOptions) (fuel : Nat) :
    ∀ (afterOperand : Bool) (braces : List Nat) (p : Place) (cs : List Char),
      TokensAlike o o' (tokensFrom o fuel afterOperand braces p cs)
        (tokensFrom o' fuel afterOperand braces p cs) := by
  induction fuel with
  | zero => exact fun _ _ p _ => .cons _ .nil
  | succ fuel ih =>
    intro afterOperand braces p cs
    have string (braces : List Nat) (f : TextForm) (start p : Place) (rest : List Char) :=
      stringTokens_alike ih braces start (readText_alike o o' f start .plain 0 0 [] p rest)
    unfold tokensFrom
    split
    · exact .cons _ .nil
    · exact ih ..
    · exact ih ..
    · exact string ..
    · exact string ..
    · exact string ..
    · exact string ..
    · exact .cons _ (.cons _ .nil)
    · exact charTokens_alike ih braces p (readText_alike ..)
    · rename_i c rest _ _ _ _ _ _ _ _
      refine .ite (fun _ => ih ..) fun _ => .ite (fun _ => ?_) fun _ => ?_
      · split
        · exact .cons _ (.cons _ .nil)
        · rename_i text q rest _
          have hraw := stringTokens_alike ih braces p (.checked (String.ofList text).utf8ByteSize p
            (.same (.ok ⟨text, .closed, q, rest⟩)))
          rw [apply_ite (stringTokens o fuel braces p),
            apply_ite (stringTokens o' fuel braces p)] at hraw
          exact hraw
      · dsimp only
        have hplain := plainToken?_alike o o' afterOperand (c :: rest)
        revert hplain
        generalize plainToken? o afterOperand (c :: rest) = r
        generalize plainToken? o' afterOperand (c :: rest) = r'
        rintro (_ | ⟨taken, t | ⟨hf, ht⟩ | ⟨hf, ht⟩⟩)
        · exact .cons _ (.cons _ .nil)
        · split
          · exact .cons _ (.cons _ .nil)
          · exact .cons _ (.cons _ .nil)
          · split
            · exact .cons _ (ih ..)
            · exact .cons _ (ih ..)
            · exact .ite (fun _ => .cons _ (string ..)) fun _ => .cons _ (ih ..)
            · exact .cons _ (ih ..)
        · cases ht <;> exact .left p _ _ hf (by constructor)
        · cases ht <;> exact .right p _ _ hf (by constructor)

/-- Two lexers give tokens that are alike. -/
theorem tokens_alike (o o' : LexOptions) (script : List Char) :
    TokensAlike o o' (tokens o script) (tokens o' script) :=
  tokensFrom_alike o o' _ ..

end LiveScene.Script
