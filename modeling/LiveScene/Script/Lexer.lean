import LiveScene.Script.Token
import LiveScene.Decimal.Reading

/-!
# From characters to tokens

`tokens` cuts a script into tokens with their places. It stops at the first
fault, which becomes a `bad` token; the last token is always `eof`, one place
past the last character.

Comments end at a line end or, nested, at their own close; one that is never
closed runs to the end of the script. A text in backquotes may hold
expressions in braces; `braces` counts the open ones of every such
expression, so the lexer knows when the text goes on.
-/

namespace LiveScene.Script

/-- What the lexer is told besides the script. -/
structure LexOptions where
  /-- The greatest length of a string in bytes, 0 for no limit. -/
  maxString : Nat
  /-- Whether the word `eval` is refused. -/
  refuseEval : Bool
  deriving Repr

/-- How far a backslash sequence has been read. -/
inductive EscapeState where
  /-- Outside of a sequence. -/
  | plain
  /-- Behind the backslash. -/
  | opened
  /-- Inside of a hexadecimal number, with what was read of the sequence,
  the digits still to come and the value so far. -/
  | hex (read : List Char) (left : Nat) (value : Nat)

/-- How a string is to be read. -/
structure TextForm where
  quote : Char
  /-- Backslashes and line ends stand for themselves. -/
  verbatim : Bool
  /-- A backslash may stand before a line end. -/
  continues : Bool
  /-- Expressions may be inserted. -/
  inserts : Bool

/-- What follows the part of a string that was read. -/
inductive TextEnd where
  | closed
  | insertion
  deriving DecidableEq

/-- A part of a string and where it ended. -/
structure TextPart where
  text : List Char
  ending : TextEnd
  place : Place
  rest : List Char

/-- The number of characters of a hexadecimal escape. -/
def hexWidth? : Char → Option Nat
  | 'x' => some 2
  | 'u' => some 4
  | 'U' => some 8
  | _ => none

/-- The character of a one-letter escape; the quote itself may be escaped. -/
def letterEscape? (quote : Char) : Char → Option Char
  | 'r' => some '\r'
  | 'n' => some '\n'
  | 't' => some '\t'
  | '\\' => some '\\'
  | c => if c = quote then some c else none

/-- The character with a code, if there is one. -/
def charOfCode? (n : Nat) : Option Char :=
  if n.isValidChar then some (Char.ofNat n) else none

/-- Blanks between tokens. -/
def isBlank (c : Char) : Bool :=
  c = ' ' || c = '\t' || c = '\n' || c = '\r' || c = '\x0c'

/-- Blanks that a continued line may start with. -/
def isIndent (c : Char) : Bool := isBlank c || c = '\x0b' || c = '\u0085' || c = '\u00a0'

/-- Read a string from behind its opening quote. `done` is the text so far,
newest character first, `size` its length in bytes; blanks left of column
`indent` are skipped after a continued line. -/
def readText (o : LexOptions) (f : TextForm) (start : Place) (state : EscapeState)
    (indent size : Nat) (done : List Char) (p : Place) :
    List Char → Except (LexFault × Place) TextPart
  | [] =>
    if o.maxString ≠ 0 ∧ o.maxString < size then .error (.tooLong o.maxString, start)
    else match state with
      | .hex read _ _ => .error (.malformedEscape (String.ofList read.reverse), p)
      | _ => .error (.unterminated, start)
  | c :: cs =>
    let p' := p.after c
    match state with
    | .hex read left value =>
      match Decimal.hexDigit? c with
      | none => .error (.malformedEscape (String.ofList (c :: read).reverse), p)
      | some d =>
        let value := value * 16 + d
        if left ≤ 1 then
          match charOfCode? value with
          | none => .error (.malformedEscape (String.ofList (c :: read).reverse), p)
          | some e => readText o f start .plain indent (size + e.utf8Size) (e :: done) p' cs
        else readText o f start (.hex (c :: read) (left - 1) value) indent size done p' cs
    | .opened =>
      if o.maxString ≠ 0 ∧ o.maxString < size then .error (.tooLong o.maxString, start)
      else if c = '\r' ∧ cs.head? = some '\n' then
        readText o f start .opened indent size done p' cs
      else if c = '\n' then
        if f.continues then readText o f start .plain (start.col + 1) size done p' cs
        else .error (.unterminated, start)
      else match letterEscape? f.quote c with
        | some e => readText o f start .plain indent (size + e.utf8Size) (e :: done) p' cs
        | none =>
          match hexWidth? c with
          | some width => readText o f start (.hex [c, '\\'] width 0) indent size done p' cs
          | none => .error (.malformedEscape (String.ofList ['\\', c]), p)
    | .plain =>
      if o.maxString ≠ 0 ∧ o.maxString < size then .error (.tooLong o.maxString, start)
      else if f.inserts ∧ c = '$' ∧ cs.head? = some '\x7b' then
        .ok ⟨done.reverse, .insertion, p', cs⟩
      else if c = f.quote then
        match cs with
        | d :: rest =>
          if d = f.quote then
            readText o f start .plain indent (size + c.utf8Size) (c :: done) (p'.after d) rest
          else .ok ⟨done.reverse, .closed, p', cs⟩
        | [] => .ok ⟨done.reverse, .closed, p', cs⟩
      else if c = '\r' ∧ cs.head? = some '\n' then
        readText o f start .plain indent size done p' cs
      else if c = '\\' ∧ !f.verbatim then readText o f start .opened indent size done p' cs
      else if c = '\n' then
        if f.verbatim then
          readText o f start .plain indent (size + c.utf8Size) (c :: done) p' cs
        else .error (.unterminated, start)
      else if isIndent c ∧ p.col < indent then readText o f start .plain indent size done p' cs
      else readText o f start .plain 0 (size + c.utf8Size) (c :: done) p' cs

/-- Read a raw string from behind its opening quote, up to a quote that is
followed by as many number signs as stood in front of it. -/
def readRaw (hashes : List Char) (done : List Char) (p : Place) :
    List Char → Option (List Char × Place × List Char)
  | [] => none
  | c :: cs =>
    if c = '"' ∧ hashes.isPrefixOf cs then
      some (done.reverse, p.right (hashes.length + 1), cs.drop hashes.length)
    else readRaw hashes (c :: done) (p.after c) cs

/-- Skip a block comment from behind its opening, `depth` levels below the outermost. -/
def skipBlock (depth : Nat) (p : Place) : List Char → Place × List Char
  | [] => (p, [])
  | c :: cs =>
    match cs with
    | [] => (p.after c, [])
    | d :: rest =>
      if c = '/' ∧ d = '*' then skipBlock (depth + 1) (p.right 2) rest
      else if c = '*' ∧ d = '/' then
        match depth with
        | 0 => (p.right 2, rest)
        | depth + 1 => skipBlock depth (p.right 2) rest
      else skipBlock depth (p.after c) (d :: rest)

/-- Skip the rest of a line. -/
def skipLine (p : Place) : List Char → Place × List Char
  | [] => (p, [])
  | c :: cs => if c = '\n' then (p.after c, cs) else skipLine (p.after c) cs

/-- The digits of a number system. -/
inductive Radix where
  | decimal
  | based (base : Nat)
  deriving DecidableEq

/-- Whether a character is a digit of the number system. -/
def Radix.holds : Radix → Char → Bool
  | .decimal, c => c.isDigit
  | .based b, c => match Decimal.hexDigit? c with
    | some d => d < b
    | none => false

/-- The number system that a letter behind a leading zero asks for. -/
def radixOf? : Char → Option Nat
  | 'x' | 'X' => some 16
  | 'o' | 'O' => some 8
  | 'b' | 'B' => some 2
  | _ => none

/-- The text of a number: its characters without separators, newest first,
the number system, and how many characters were taken. With `sign` the next
character is the sign of the exponent. There is one point at most, and none
behind an exponent. -/
def readNumeral (radix : Radix) (sign : Bool) (done : List Char) (taken : Nat) :
    List Char → Radix × List Char × Nat
  | [] => (radix, done, taken)
  | c :: cs =>
    if sign then readNumeral radix false (c :: done) (taken + 1) cs
    else if c = '_' then readNumeral radix false done (taken + 1) cs
    else if radix.holds c then readNumeral radix false (c :: done) (taken + 1) cs
    else if c = '.' ∧ radix = .decimal ∧ '.' ∉ done ∧ 'e' ∉ done then
      match cs.head? with
      | none => (radix, done, taken)
      | some d =>
        if d.isDigit then readNumeral radix false (c :: done) (taken + 1) cs
        else if d = '_' ∨ d = '.' ∨ d.isAlpha then (radix, done, taken)
        else readNumeral radix false ('0' :: c :: done) (taken + 1) cs
    else if c = 'e' ∧ radix = .decimal ∧ 'e' ∉ done then
      if cs.head?.any Char.isDigit then readNumeral radix false (c :: done) (taken + 1) cs
      else if cs.head?.any (fun d => d = '+' || d = '-') then
        readNumeral radix true (c :: done) (taken + 1) cs
      else (radix, done, taken)
    else if done = ['0'] then
      match radixOf? c with
      | some b => readNumeral (.based b) false (c :: done) (taken + 1) cs
      | none => (radix, done, taken)
    else (radix, done, taken)

/-- The number that 64 bits hold as one with a sign. -/
def wrapInt (n : Nat) : Int := if n ≤ 9223372036854775807 then n else (n : Int) - Nat.pow 2 64

/-- The float that a decimal text writes, if it is one number. -/
def floatOfText? (negative : Bool) (cs : List Char) : Option Float :=
  let whole := cs.takeWhile Char.isDigit
  let cs := cs.dropWhile Char.isDigit
  let (fraction, cs) := match cs with
    | '.' :: rest => (rest.takeWhile Char.isDigit, rest.dropWhile Char.isDigit)
    | cs => ([], cs)
  let m := Decimal.value (whole ++ fraction)
  match cs with
  | [] => some (Decimal.toFloat negative m (-fraction.length))
  | 'e' :: rest =>
    let minus := rest.head? = some '-'
    let digits := if minus ∨ rest.head? = some '+' then rest.tail else rest
    if digits = [] ∨ !digits.all Char.isDigit then none
    else
      let e : Int := Decimal.value digits
      some (Decimal.toFloat negative m ((if minus then -e else e) - fraction.length))
  | _ => none

/-- The token of a number's text. -/
def numberToken (negative : Bool) (radix : Radix) (text : List Char) : Token :=
  let written := String.ofList (if negative then '-' :: text else text)
  let malformed := Token.bad (.malformedNumber written)
  match radix with
  | .based b =>
    let digits := text.drop 2
    if digits = [] ∨ !digits.all (Radix.holds (.based b)) then malformed
    else
      let n := digits.foldl (fun n c => n * b + (Decimal.hexDigit? c).getD 0) 0
      if n < Nat.pow 2 64 then .int (if negative then -(wrapInt n) else wrapInt n) else malformed
  | .decimal =>
    let n : Int := Decimal.value text
    let n := if negative then -n else n
    if text.all Char.isDigit && fitsInt n then .int n
    else match floatOfText? negative text with
      | some x => .float x
      | none => malformed

/-- Punctuation and operators, longer ones before their beginnings. -/
def markTable : List String :=
  ["**=", "<<=", ">>=", "..=", "()", "+=", "-=", "**", "*=", "/=", "..", "==", "=>", "::",
    "<=", "<<", ">=", ">>", "!=", "||", "|=", "&&", "&=", "^=", "%=", "?.", "??", "?[",
    "#\x7b", "\x7b", "\x7d", "(", ")", "[", "]", "+", "-", "*", "/", ";", ",", ".", ":", "=",
    "<", ">", "!", "|", "&", "^", "%"]

/-- Reserved symbols, longer ones before their beginnings. -/
def reservedMarkTable : List String :=
  ["===", "!==", "::<", "...", "(*", "*)", "++", "->", "--", ":=", ":;", "<-", "<|", "!.",
    "|>", "#!", "~", "@", "$", "?", "#"]

/-- The longest spelling of a table that a text starts with. -/
def longestIn (table : List String) (cs : List Char) : Option String :=
  table.find? fun s => s.toList.isPrefixOf cs

/-- The mark or reserved symbol at the start of a text. -/
def markAt? (cs : List Char) : Option Token :=
  match longestIn markTable cs, longestIn reservedMarkTable cs with
  | none, none => none
  | some m, none => some (.mark m)
  | none, some r => some (.reserved r)
  | some m, some r => if r.length < m.length then some (.mark m) else some (.reserved r)

/-- The token of a reserved word or symbol, which may be refused at once. -/
def reservedToken (o : LexOptions) (s : String) : Token :=
  match symbolHint s with
  | some hint => .bad (.improperSymbol s hint)
  | none =>
    if s = "eval" ∧ o.refuseEval then
      .bad (.improperSymbol s ("reserved keyword '" ++ s ++ "' is disabled"))
    else .reserved s

/-- The token of a row of letters, digits and underscores. -/
def wordToken (o : LexOptions) (s : String) : Token :=
  if keywords.contains s then .word s
  else if reservedWords.contains s then reservedToken o s
  else if isNameText s then .name s
  else .bad (.malformedName s)

/-- Whether a minus sign behind the token is an operator between two operands. -/
def Token.endsOperand : Token → Bool
  | .int _ | .float _ | .char _ | .str _ | .name _ | .reserved _ => true
  | .word w => !(["if", "while", "until", "in", "return", "throw"].contains w)
  | .mark m => [")", "]", "\x7d", "()", ".", "?."].contains m
  | _ => false

/-- The token at the start of a text that is neither blank nor a comment nor
a string, the characters it takes, and nothing if no token starts here. -/
def plainToken? (o : LexOptions) (afterOperand : Bool) (cs : List Char) : Option (Token × Nat) :=
  match cs with
  | [] => none
  | c :: rest =>
    if c.isDigit then
      let (radix, text, taken) := readNumeral .decimal false [] 0 cs
      some (numberToken false radix text.reverse, taken)
    else if c = '-' ∧ !afterOperand ∧ (rest.head?.any Char.isDigit) then
      let (radix, text, taken) := readNumeral .decimal false [] 0 rest
      some (numberToken true radix text.reverse, taken + 1)
    else if c.isAlpha ∨ c = '_' then
      let text := cs.takeWhile (fun c => c.isAlphanum || c = '_')
      some (wordToken o (String.ofList text), text.length)
    else match cs with
      | '!' :: 'i' :: 'n' :: after =>
        if after.head?.any (fun c => c.isAlphanum || c = '_') then some (.mark "!", 1)
        else some (.mark "!in", 3)
      | _ =>
        match markAt? cs with
        | some (.mark m) => some (.mark m, m.length)
        | some (.reserved r) => some (reservedToken o r, r.length)
        | _ => none

/-- A token with its place. -/
abbrev Located := Token × Place

/-- The tokens of a text from a place on. `fuel` bounds the rounds; every
round takes a character. -/
def tokensFrom (o : LexOptions) (fuel : Nat) (afterOperand : Bool) (braces : List Nat)
    (p : Place) (cs : List Char) : List Located :=
  match fuel with
  | 0 => [(.eof, p)]
  | fuel + 1 =>
    let stop (fault : LexFault) (q : Place) : List Located := [(.bad fault, q), (.eof, q)]
    let string (f : TextForm) (start from' : Place) (rest : List Char) : List Located :=
      match readText o f start .plain 0 0 [] from' rest with
      | .error (fault, q) => stop fault q
      | .ok part =>
        match part.ending with
        | .closed =>
          (.str (String.ofList part.text), start) ::
            tokensFrom o fuel true braces part.place part.rest
        | .insertion =>
          (.segment (String.ofList part.text), start) ::
            tokensFrom o fuel false (0 :: braces) part.place part.rest
    let backquoted (start from' : Place) (rest : List Char) : List Located :=
      string ⟨'\x60', true, false, true⟩ start from' rest
    match cs with
    | [] => [(.eof, p)]
    | '/' :: '/' :: rest =>
      let (q, rest) := skipLine (p.right 2) rest
      tokensFrom o fuel afterOperand braces q rest
    | '/' :: '*' :: rest =>
      let (q, rest) := skipBlock 0 (p.right 2) rest
      tokensFrom o fuel afterOperand braces q rest
    | '"' :: rest => string ⟨'"', false, true, false⟩ p (p.after '"') rest
    | '\x60' :: '\r' :: '\n' :: rest => backquoted p (p.right 2).down rest
    | '\x60' :: '\n' :: rest => backquoted p (p.right 1).down rest
    | '\x60' :: rest => backquoted p (p.right 1) rest
    | '\x27' :: '\x27' :: _ => stop (.malformedChar "") p
    | '\x27' :: rest =>
      match readText o ⟨'\x27', false, false, false⟩ p .plain 0 0 [] (p.after '\x27') rest with
      | .error (fault, q) => stop fault q
      | .ok part =>
        match part.text with
        | [c] => (.char c, p) :: tokensFrom o fuel true braces part.place part.rest
        | text => stop (.malformedChar (String.ofList text)) p
    | c :: rest =>
      if isBlank c then tokensFrom o fuel afterOperand braces (p.after c) rest
      else
        let hashes := cs.takeWhile (· = '#')
        let behind := cs.dropWhile (· = '#')
        if hashes ≠ [] ∧ behind.head? = some '"' then
          match readRaw hashes [] (p.right (hashes.length + 1)) behind.tail with
          | none => stop .unterminated p
          | some (text, q, rest) =>
            if o.maxString ≠ 0 ∧ o.maxString < (String.ofList text).utf8ByteSize then
              stop (.tooLong o.maxString) p
            else (.str (String.ofList text), p) :: tokensFrom o fuel true braces q rest
        else match plainToken? o afterOperand cs with
          | none => stop (.unexpected (String.ofList [c])) p
          | some (.bad fault, _) => stop fault p
          | some (t, taken) =>
            let q := p.right taken
            let rest := cs.drop taken
            match t, braces with
            | .mark "\x7b", n :: outer =>
              (t, p) :: tokensFrom o fuel false ((n + 1) :: outer) q rest
            | .mark "#\x7b", n :: outer =>
              (t, p) :: tokensFrom o fuel false ((n + 1) :: outer) q rest
            | .mark "\x7d", n :: outer =>
              if n ≤ 1 then
                -- the inserted expression is over, the text goes on
                (t, p) ::
                  (match readText o ⟨'\x60', true, false, true⟩ p .plain 0 0 [] q rest with
                  | .error (fault, r) => stop fault r
                  | .ok part =>
                    match part.ending with
                    | .closed =>
                      (.str (String.ofList part.text), p) ::
                        tokensFrom o fuel true outer part.place part.rest
                    | .insertion =>
                      (.segment (String.ofList part.text), p) ::
                        tokensFrom o fuel false (0 :: outer) part.place part.rest)
              else (t, p) :: tokensFrom o fuel true ((n - 1) :: outer) q rest
            | _, _ => (t, p) :: tokensFrom o fuel t.endsOperand braces q rest

/-- The tokens of a script. -/
def tokens (o : LexOptions) (script : List Char) : List Located :=
  tokensFrom o (script.length + 1) false [] .start script

end LiveScene.Script
