import LiveScene.Compiler.Compilation
import LiveScene.Proofs.Compiler.Code

/-!
# Arguments of a call

From a place in code on, a source is a row of lexemes: bytes of code, and the
comments and strings between them (`lexemes`). `Piece` gives the structure of
a list of arguments on top of that, with a group for each pair of brackets.
The arguments are what stands between the commas at top level.

The count goes by lexemes alone (`argumentCount_eq`), it leaves a piece as deep
as it came to it (`scan_piece`), and so it counts the pieces between commas that
hold more than white space (`scan_arguments`). A comment counts as something
that stands there. What comes out is the number of arguments, and one more for
each piece that holds no more than comments (`argumentCount_of_call`). Where a
comment stands in front of the list, the count does not find the list.
-/

namespace LiveScene.Compiler

open Text

/-! ## Lexemes -/

/-- What a source is made of, as far as calls go. -/
inductive Lexeme where
  /-- A byte outside of comments and strings. -/
  | code (b : UInt8)
  /-- A comment or a string. -/
  | inert (text : List UInt8)
  deriving DecidableEq

namespace Lexeme

/-- White space. -/
def isBlank : Lexeme → Bool
  | code b => Compiler.isBlank b
  | inert _ => false

/-- A comment; all other inert stretches start with a quote. -/
def isComment : Lexeme → Bool
  | code _ => false
  | inert text => text.head? = some (byte '/')

end Lexeme

/-- The lexemes of a text whose first `skip` bytes belong to the stretch found last. -/
def lexemesFrom (skip : Nat) : List UInt8 → List Lexeme
  | [] => []
  | b :: bs =>
    match skip with
    | skip + 1 => lexemesFrom skip bs
    | 0 =>
      match inertLength? (b :: bs) with
      | some n => .inert ((b :: bs).take n) :: lexemesFrom (n - 1) bs
      | none => .code b :: lexemesFrom 0 bs

/-- The lexemes of a text that starts in code. -/
def lexemes (bs : List UInt8) : List Lexeme := lexemesFrom 0 bs

/-- Count on behind the opening parenthesis of a call, lexeme by lexeme. -/
def scan (s : ArgumentScan) : List Lexeme → Option Nat
  | [] => none
  | .inert _ :: ls => scan { s with pending := true } ls
  | .code b :: ls => if b = byte ')' ∧ s.depth = 0 then some s.total else scan (s.step b) ls

/-- The arguments of the list that a row of lexemes starts with, behind white space. -/
def countLexemes (ls : List Lexeme) : Option Nat :=
  match ls.dropWhile Lexeme.isBlank with
  | .code b :: rest => if b = byte '(' then scan .initial rest else none
  | _ => none

variable {found : List ByteRange} {start skip : Nat}

/-- Ranges that start earlier are not those of a byte. -/
theorem find?_append_of_lt (h : ∀ r ∈ found, r.start < start) (later : List ByteRange) :
    (found ++ later).find? (·.start = start) = later.find? (·.start = start) := by
  rw [List.find?_append, List.find?_eq_none.2 fun r hr => by simpa using (h r hr).ne]
  rfl

/-- The count finds the ranges of a source where its lexemes are inert. -/
theorem countArguments_eq (h : ∀ r ∈ found, r.start < start) (s : ArgumentScan)
    (bs : List UInt8) :
    countArguments (found ++ inertFrom start skip bs) s start skip bs =
      scan s (lexemesFrom skip bs) := by
  induction bs generalizing found start skip s with
  | nil => rfl
  | cons b bs ih =>
    have hnext : ∀ r ∈ found, r.start < start + 1 := fun r hr => Nat.lt_succ_of_lt (h r hr)
    cases skip with
    | succ k => exact ih hnext s
    | zero =>
      rw [countArguments, inertFrom, lexemesFrom]
      cases hinert : inertLength? (b :: bs) with
      | some n =>
        have hlater : ∀ r ∈ found ++ [(⟨start, start + n⟩ : ByteRange)], r.start < start + 1 := by
          intro r hr
          rcases List.mem_append.1 hr with hr | hr
          · exact hnext r hr
          · rw [List.mem_singleton.1 hr]
            exact Nat.lt_succ_self start
        have ih := @ih _ _ (n - 1) hlater { s with pending := true }
        rw [List.append_assoc, List.singleton_append] at ih
        simp only [find?_append_of_lt h, List.find?_cons_of_pos, decide_true, scan,
          ByteRange.length, Nat.add_sub_cancel_left]
        exact ih
      | none =>
        have hfind : (inertFrom (start + 1) 0 bs).find? (·.start = start) = none :=
          List.find?_eq_none.2 fun r hr => by
            have := start_le_of_mem_inertFrom hr
            simp only [decide_eq_true_eq]
            omega
        simp only [find?_append_of_lt h, hfind, scan]
        split_ifs
        · rfl
        · exact ih hnext (s.step b)

/-- White space opens no comment and no string. -/
theorem inertLength?_of_isBlank {b : UInt8} (hb : isBlank b = true) (bs : List UInt8) :
    inertLength? (b :: bs) = none := by
  simp only [isBlank, Bool.or_eq_true, decide_eq_true_eq] at hb
  rcases hb with (((rfl | rfl) | rfl) | rfl) | rfl <;> rfl

/-- A byte that opens nothing is a lexeme of its own. -/
theorem lexemes_cons_code {b : UInt8} {bs : List UInt8} (h : inertLength? (b :: bs) = none) :
    lexemes (b :: bs) = .code b :: lexemes bs := by
  rw [lexemes, lexemesFrom, h]
  rfl

/-- White space in front of a list of arguments makes no difference. -/
theorem countLexemes_cons_blank {b : UInt8} (hb : isBlank b = true) (ls : List Lexeme) :
    countLexemes (.code b :: ls) = countLexemes ls := by
  rw [countLexemes, List.dropWhile_cons_of_pos (by exact hb)]
  rfl

/-- The count begins behind the opening parenthesis, once white space is skipped. -/
theorem argumentCount_behind (u v : List UInt8) (inert : List ByteRange) :
    argumentCount (u ++ v) u.length inert =
      match v.dropWhile isBlank with
      | b :: bs =>
        if b = byte '(' then
          countArguments inert .initial (u.length + (v.takeWhile isBlank).length + 1) 0 bs
        else none
      | [] => none := by
  have hdrop : v = (u ++ v).drop u.length := List.drop_left.symm
  conv_rhs => rw [hdrop]
  rfl

/-- The list of arguments is found behind white space, and not behind a comment. -/
theorem countLexemes_gap {gap : List Lexeme}
    (hgap : ∀ l ∈ gap, l.isBlank = true ∨ l.isComment = true) (ls : List Lexeme) :
    countLexemes (gap ++ .code (byte '(') :: ls) =
      if gap.any Lexeme.isComment then none else scan .initial ls := by
  induction gap with
  | nil => rfl
  | cons l gap ih =>
    have ih := ih fun l hl => hgap l (List.mem_cons_of_mem _ hl)
    cases l with
    | inert text =>
      have hcomment : (Lexeme.inert text).isComment = true := by
        simpa [Lexeme.isBlank] using hgap (.inert text) (List.mem_cons_self ..)
      rw [List.any_cons, hcomment]
      rfl
    | code b =>
      have hblank : isBlank b = true := by
        simpa [Lexeme.isBlank, Lexeme.isComment] using hgap (.code b) (List.mem_cons_self ..)
      rw [List.cons_append, countLexemes_cons_blank hblank, ih]
      rfl

/-- The count of what follows a callee in a text goes by the lexemes there. -/
theorem argumentCount_append {u v : List UInt8} (h : ∀ r ∈ found, r.start < u.length) :
    argumentCount (u ++ v) u.length (found ++ inertFrom u.length 0 v) =
      countLexemes (lexemes v) := by
  induction v generalizing u found with
  | nil =>
    rw [argumentCount_behind]
    rfl
  | cons b v ih =>
    have hnext : ∀ r ∈ found, r.start < u.length + 1 := fun r hr => Nat.lt_succ_of_lt (h r hr)
    rw [argumentCount_behind]
    cases hb : isBlank b with
    | true =>
      have hinert := inertLength?_of_isBlank hb v
      have hlonger : ∀ r ∈ found, r.start < (u ++ [b]).length := by simpa using hnext
      have ih := ih hlonger
      rw [argumentCount_behind, List.length_append, List.length_singleton] at ih
      have hlength : u.length + ((v.takeWhile isBlank).length + 1) =
          u.length + 1 + (v.takeWhile isBlank).length := by omega
      simp only [lexemes_cons_code hinert, countLexemes_cons_blank hb, ← ih, inertFrom, hinert,
        List.dropWhile_cons_of_pos hb, List.takeWhile_cons_of_pos hb, List.length_cons, hlength]
    | false =>
      have hne : ¬ isBlank b = true := by simp [hb]
      simp only [List.dropWhile_cons_of_neg hne, List.takeWhile_cons_of_neg hne, List.length_nil,
        Nat.add_zero]
      cases hinert : inertLength? (b :: v) with
      | some n =>
        have hparen : b ≠ byte '(' := by
          rintro rfl
          have hopen : inertLength? (byte '(' :: v) = none := rfl
          simp [hopen] at hinert
        simp [hparen, lexemes, lexemesFrom, hinert, countLexemes, Lexeme.isBlank]
      | none =>
        have hcount := @countArguments_eq _ _ 0 hnext .initial v
        simp only [inertFrom, hinert, hcount, lexemes_cons_code hinert, countLexemes,
          List.dropWhile_cons_of_neg (show ¬ (Lexeme.code b).isBlank = true from hne)]
        rfl

/-- The count of a call goes by the lexemes from the end of the callee on. -/
theorem argumentCount_eq {source : List UInt8} {after : Nat}
    (hcode : isCode (inertRanges source) after = true) :
    argumentCount source after (inertRanges source) =
      countLexemes (lexemes (source.drop after)) := by
  rcases Nat.lt_or_ge source.length after with hlt | hle
  · rw [argumentCount, List.drop_of_length_le (Nat.le_of_lt hlt)]
    rfl
  · have hlength : (source.take after).length = after := List.length_take_of_le hle
    have hsplit := List.take_append_drop after source
    generalize source.take after = u at hlength hsplit
    generalize source.drop after = v at hsplit
    subst hsplit hlength
    obtain ⟨found, heq, hstart⟩ := exists_inertRanges_append hcode
    rw [heq, argumentCount_append hstart]

/-! ## Pieces of a list of arguments -/

/-- A kind of brackets. -/
inductive Bracket where
  | round
  | square
  | curly
  deriving DecidableEq

namespace Bracket

def opening : Bracket → UInt8
  | round => byte '('
  | square => byte '['
  | curly => byte '\x7b'

def closing : Bracket → UInt8
  | round => byte ')'
  | square => byte ']'
  | curly => byte '\x7d'

end Bracket

/-- Whether a lexeme is a bracket of any kind. -/
def Lexeme.isBracket (l : Lexeme) : Bool :=
  [Bracket.round, .square, .curly].any fun k => l = .code k.opening || l = .code k.closing

/-- A part of a list of arguments: a lexeme that is no bracket, or a group in brackets. -/
inductive Piece where
  | single (l : Lexeme) (h : l.isBracket = false)
  | group (kind : Bracket) (inner : List Piece)

mutual

/-- The lexemes of a piece. -/
def Piece.lexemes : Piece → List Lexeme
  | .single l _ => [l]
  | .group kind inner => .code kind.opening :: (lexemesOf inner ++ [.code kind.closing])

/-- The lexemes of pieces in a row. -/
def lexemesOf : List Piece → List Lexeme
  | [] => []
  | p :: ps => p.lexemes ++ lexemesOf ps

end

namespace Piece

/-- A comma between arguments. -/
def isComma : Piece → Bool
  | single l _ => l = .code (byte ',')
  | group .. => false

def isBlank : Piece → Bool
  | single l _ => l.isBlank
  | group .. => false

def isComment : Piece → Bool
  | single l _ => l.isComment
  | group .. => false

/-- What an argument is made of. -/
def counts (p : Piece) : Bool := !p.isBlank && !p.isComment

end Piece

/-- The arguments of a list: the pieces between the commas that hold anything besides white space
and comments. -/
def argumentsOf (ps : List Piece) : Nat := (ps.splitOnP Piece.isComma).countP (·.any Piece.counts)

/-- The pieces between the commas that hold comments, but no argument. -/
def remarks (ps : List Piece) : Nat :=
  (ps.splitOnP Piece.isComma).countP fun part => !part.any Piece.counts && part.any Piece.isComment

/-! ## The count of the pieces -/

theorem step_opening (s : ArgumentScan) (k : Bracket) :
    s.step k.opening = ⟨s.depth + 1, s.count, true⟩ := by
  cases k <;> simp +decide [ArgumentScan.step]

theorem step_closing (s : ArgumentScan) (k : Bracket) :
    s.step k.closing = { s with depth := s.depth - 1 } := by
  cases k <;> simp +decide [ArgumentScan.step]

/-- What is no bracket ends an argument if it is a comma outside of all brackets, and otherwise
belongs to one unless it is white space. -/
theorem step_single (s : ArgumentScan) {b : UInt8} (hb : (Lexeme.code b).isBracket = false) :
    s.step b = if b = byte ',' ∧ s.depth = 0 then ⟨0, s.total, false⟩
      else { s with pending := s.pending || !isBlank b } := by
  simp only [Lexeme.isBracket, Bracket.opening, Bracket.closing, List.any_cons, List.any_nil,
    Lexeme.code.injEq, Bool.or_eq_false_iff, decide_eq_false_iff_not] at hb
  obtain ⟨⟨hround, hround'⟩, ⟨hsquare, hsquare'⟩, ⟨hcurly, hcurly'⟩, -⟩ := hb
  simp only [ArgumentScan.step, hround, hround', hsquare, hsquare', hcurly, hcurly', or_self,
    if_false]
  cases isBlank b <;> simp

/-- A byte that does not end the call is stepped over. -/
theorem scan_code {s : ArgumentScan} {b : UInt8} (h : ¬ (b = byte ')' ∧ s.depth = 0))
    (ls : List Lexeme) : scan s (.code b :: ls) = scan (s.step b) ls := by
  rw [scan, if_neg h]

/-- A lexeme that is no bracket and no comma between arguments only fills the one at hand. -/
theorem scan_single {d : Nat} {l : Lexeme} (hl : l.isBracket = false)
    (h : l ≠ .code (byte ',') ∨ d ≠ 0) (n : Nat) (pending : Bool) (ls : List Lexeme) :
    scan ⟨d, n, pending⟩ (l :: ls) = scan ⟨d, n, pending || !l.isBlank⟩ ls := by
  cases l with
  | inert text => simp [scan, Lexeme.isBlank]
  | code b =>
    have hclose : ¬ (b = byte ')' ∧ d = 0) := by
      rintro ⟨rfl, -⟩
      exact absurd hl (by decide)
    have hcomma : ¬ (b = byte ',' ∧ d = 0) := by
      rintro ⟨rfl, rfl⟩
      simp at h
    rw [scan_code hclose, step_single _ hl, if_neg hcomma]
    rfl

mutual

/-- A piece leaves the count as deep as it was. -/
theorem scan_piece {d : Nat} : ∀ (p : Piece), p.isComma = false ∨ d ≠ 0 →
    ∀ (n : Nat) (pending : Bool) (ls : List Lexeme),
      scan ⟨d, n, pending⟩ (p.lexemes ++ ls) = scan ⟨d, n, pending || !p.isBlank⟩ ls
  | .single l hl, h, n, pending, ls =>
    scan_single hl (h.imp (fun hc => by simpa [Piece.isComma] using hc) id) n pending ls
  | .group kind inner, _, n, pending, ls => by
    have hopen : ¬ (kind.opening = byte ')' ∧ d = 0) := by cases kind <;> simp +decide
    have hclose : ¬ (kind.closing = byte ')' ∧ d + 1 = 0) := by simp
    rw [Piece.lexemes, List.cons_append, scan_code hopen, step_opening, List.append_assoc,
      scan_inner inner, List.singleton_append, scan_code hclose, step_closing]
    simp [Piece.isBlank]

/-- The inside of a group changes nothing. -/
theorem scan_inner {d : Nat} : ∀ (ps : List Piece) (n : Nat) (ls : List Lexeme),
    scan ⟨d + 1, n, true⟩ (lexemesOf ps ++ ls) = scan ⟨d + 1, n, true⟩ ls
  | [], _, _ => rfl
  | p :: ps, n, ls => by
    rw [lexemesOf, List.append_assoc, scan_piece p (.inr (Nat.succ_ne_zero d)), Bool.true_or,
      scan_inner ps]

end

/-- Whether a part between commas holds more than white space. -/
def isFilled (part : List Piece) : Bool := part.any (!·.isBlank)

/-- The parts that hold more than white space. Of the first one something may have been seen. -/
def filled (pending : Bool) : List (List Piece) → Nat
  | [] => 0
  | part :: parts => (if pending || isFilled part then 1 else 0) + parts.countP isFilled

theorem filled_false (parts : List (List Piece)) : filled false parts = parts.countP isFilled := by
  cases parts with
  | nil => rfl
  | cons part parts => simp [filled, List.countP_cons, Nat.add_comm]

/-- A piece in front fills the first part unless it is white space. -/
theorem filled_modifyHead (pending : Bool) (p : Piece) {parts : List (List Piece)} :
    filled pending (parts.modifyHead (p :: ·)) = filled (pending || !p.isBlank) parts := by
  cases parts with
  | nil => rfl
  | cons part parts => simp [filled, isFilled, Bool.or_assoc]

/-- The count of a list of arguments up to its closing parenthesis. -/
theorem scan_arguments (ps : List Piece) (n : Nat) (pending : Bool) (rest : List Lexeme) :
    scan ⟨0, n, pending⟩ (lexemesOf ps ++ .code (byte ')') :: rest) =
      some (n + filled pending (ps.splitOnP Piece.isComma)) := by
  induction ps generalizing n pending with
  | nil => simp [lexemesOf, scan, ArgumentScan.total, filled, isFilled]
  | cons p ps ih =>
    rw [lexemesOf, List.append_assoc, List.splitOnP_cons_eq_if_modifyHead]
    cases hp : p.isComma with
    | false =>
      rw [scan_piece p (.inl hp), ih]
      simp [filled_modifyHead]
    | true =>
      obtain ⟨hl, rfl⟩ : ∃ hl, p = .single (.code (byte ',')) hl := by
        cases p with
        | single l hl =>
          obtain rfl : l = .code (byte ',') := by simpa [Piece.isComma] using hp
          exact ⟨hl, rfl⟩
        | group kind inner => simp [Piece.isComma] at hp
      have hclose : ¬ (byte ',' = byte ')' ∧ (0 : Nat) = 0) := by decide
      rw [Piece.lexemes, List.singleton_append, scan_code hclose, step_single _ hl,
        if_pos ⟨rfl, rfl⟩, ih, filled_false]
      simp [filled, isFilled, ArgumentScan.total, Nat.add_assoc]

/-- A part is filled by what belongs to an argument and by comments. -/
theorem isFilled_eq (part : List Piece) :
    isFilled part = (part.any Piece.counts || part.any Piece.isComment) := by
  have hcomment : ∀ p : Piece, (!p.isBlank) = (p.counts || p.isComment) := by
    rintro (⟨b | text, h⟩ | ⟨kind, inner⟩) <;>
      simp [Piece.counts, Piece.isBlank, Piece.isComment, Lexeme.isBlank, Lexeme.isComment]
  induction part with
  | nil => rfl
  | cons p part ih =>
    rw [isFilled] at ih ⊢
    rw [List.any_cons, List.any_cons, List.any_cons, ih, hcomment]
    ac_rfl

/-- A part that is filled holds an argument or is a remark. -/
theorem countP_isFilled (ps : List Piece) :
    (ps.splitOnP Piece.isComma).countP isFilled = argumentsOf ps + remarks ps := by
  rw [argumentsOf, remarks]
  generalize ps.splitOnP Piece.isComma = parts
  induction parts with
  | nil => rfl
  | cons part parts ih =>
    simp only [List.countP_cons, ih, isFilled_eq]
    cases part.any Piece.counts <;> cases part.any Piece.isComment <;> simp <;> omega

/-! ## White space and comments between the pieces -/

mutual

/-- A piece with the white space and the comments in it taken out. -/
def Piece.stripped : Piece → Piece
  | .single l h => .single l h
  | .group kind inner => .group kind (strippedOf inner)

/-- What pieces leave when white space and comments are taken out. -/
def strippedOf : List Piece → List Piece
  | [] => []
  | p :: ps => if p.counts then p.stripped :: strippedOf ps else strippedOf ps

end

theorem isComma_stripped (p : Piece) : p.stripped.isComma = p.isComma := by
  cases p <;> rfl

theorem counts_stripped (p : Piece) : p.stripped.counts = p.counts := by
  cases p <;> rfl

theorem counts_of_isComma {p : Piece} (h : p.isComma = true) : p.counts = true := by
  cases p with
  | single l hl =>
    obtain rfl : l = .code (byte ',') := by simpa [Piece.isComma] using h
    rfl
  | group kind inner => rfl

/-- Without white space and comments, the same parts hold an argument. -/
theorem any_counts_strippedOf (part : List Piece) :
    (strippedOf part).any Piece.counts = part.any Piece.counts := by
  induction part with
  | nil => rfl
  | cons p part ih =>
    rw [strippedOf]
    cases hp : p.counts <;> simp [hp, ih, counts_stripped]

/-- Without white space and comments, the parts between commas are the same. -/
theorem splitOnP_strippedOf (ps : List Piece) :
    (strippedOf ps).splitOnP Piece.isComma = (ps.splitOnP Piece.isComma).map strippedOf := by
  induction ps with
  | nil => rfl
  | cons p ps ih =>
    obtain ⟨part, parts, hparts⟩ :=
      List.exists_cons_of_ne_nil (List.splitOnP_ne_nil Piece.isComma ps)
    rw [hparts] at ih
    rw [strippedOf, List.splitOnP_cons_eq_if_modifyHead, hparts]
    cases hcounts : p.counts with
    | true =>
      rw [if_pos rfl, List.splitOnP_cons_eq_if_modifyHead, isComma_stripped, ih]
      cases hcomma : p.isComma <;> simp [strippedOf, hcounts]
    | false =>
      have hcomma : p.isComma = false := by
        by_contra h
        exact absurd (counts_of_isComma (by simpa using h)) (by simp [hcounts])
      rw [if_neg (by simp), hcomma, ih]
      simp [strippedOf, hcounts]

/-- White space and comments are no part of an argument. -/
theorem argumentsOf_strippedOf (ps : List Piece) :
    argumentsOf (strippedOf ps) = argumentsOf ps := by
  rw [argumentsOf, splitOnP_strippedOf, List.countP_map, argumentsOf]
  refine List.countP_congr fun part _ => ?_
  rw [Function.comp_apply, any_counts_strippedOf]

/-- A call with white space and comments behind its callee and a list of pieces in parentheses
has one argument for each piece between commas that holds more than white space and comments,
whatever the white space and the comments. The count adds one for each piece that holds comments
and nothing else, and it is not made where a comment stands in front of the list. -/
theorem argumentCount_of_call {source : List UInt8} {after : Nat}
    (hcode : isCode (inertRanges source) after = true) {gap rest : List Lexeme} {ps : List Piece}
    (hgap : ∀ l ∈ gap, l.isBlank = true ∨ l.isComment = true)
    (hcall : lexemes (source.drop after) =
      gap ++ .code (byte '(') :: (lexemesOf ps ++ .code (byte ')') :: rest)) :
    argumentCount source after (inertRanges source) =
        (if gap.any Lexeme.isComment then none else some (argumentsOf ps + remarks ps)) ∧
      ∀ ps', strippedOf ps' = strippedOf ps → argumentsOf ps' = argumentsOf ps := by
  constructor
  · rw [argumentCount_eq hcode, hcall, countLexemes_gap hgap, ArgumentScan.initial,
      scan_arguments, filled_false, countP_isFilled, Nat.zero_add]
  · intro ps' h
    rw [← argumentsOf_strippedOf ps', h, argumentsOf_strippedOf]

/-- A letter of a name, a comma and a space, as pieces. -/
def letterPieces : List Piece :=
  [.single (.code (byte 'c')) rfl, .single (.code (byte ',')) rfl, .single (.code (byte ' ')) rfl]

/-- A call with nested brackets, a string with a comma and a bracket, and a comment with a
comma. -/
theorem argumentCount_of_call_nested :
    let source := bytes "f (c, [c, c, ], \"(,\", /* , */ c)".toList
    let gap : List Lexeme := [.code (byte ' ')]
    let ps : List Piece := letterPieces ++
      .group .square (letterPieces ++ letterPieces) :: (letterPieces.tail ++
      .single (.inert (bytes "\"(,\"".toList)) rfl :: (letterPieces.tail ++
      [.single (.inert (bytes "/* , */".toList)) rfl, .single (.code (byte ' ')) rfl,
        .single (.code (byte 'c')) rfl]))
    isCode (inertRanges source) 1 = true ∧
      (∀ l ∈ gap, l.isBlank = true ∨ l.isComment = true) ∧
      lexemes (source.drop 1) =
        gap ++ .code (byte '(') :: (lexemesOf ps ++ .code (byte ')') :: []) ∧
      argumentCount source 1 (inertRanges source) = some 4 := by
  intro source gap ps
  have hcode : isCode (inertRanges source) 1 = true := by decide +kernel
  have hgap : ∀ l ∈ gap, l.isBlank = true ∨ l.isComment = true := by decide +kernel
  have hcall : lexemes (source.drop 1) =
      gap ++ .code (byte '(') :: (lexemesOf ps ++ .code (byte ')') :: []) := by decide +kernel
  exact ⟨hcode, hgap, hcall, (argumentCount_of_call hcode hgap hcall).1⟩

/-- A call with sixteen arguments is taken for one with seventeen, for the comment behind them. -/
theorem comment_counted :
    let callee := "import \"implicit\" as i;\nlet c = i::circle(0, 0, 1);\ni::and"
    let script := callee ++ "(c, c, c, c, c, c, c, c, c, c, c, c, c, c, c, c, /* last */)"
    let source := bytes script.toList
    let after := byteLength callee.toList
    let ps := (List.replicate 16 letterPieces).flatten ++
      [.single (.inert (bytes "/* last */".toList)) rfl]
    (compile .default .implicit script).grammar = [] ∧
      isCode (inertRanges source) after = true ∧
      lexemes (source.drop after) =
        .code (byte '(') :: (lexemesOf ps ++ .code (byte ')') :: []) ∧
      argumentsOf ps = 16 ∧ argumentCount source after (inertRanges source) = some 17 ∧
      (compile .default .implicit script).semantic.map (·.innermostMessage) =
        ["'and' takes at most 16 arguments; pass an array for more."] :=
  ⟨by decide +kernel, by decide +kernel, by decide +kernel, by decide +kernel, by decide +kernel,
    by decide +kernel⟩

end LiveScene.Compiler
