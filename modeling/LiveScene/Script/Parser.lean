import LiveScene.Script.Lexer
import LiveScene.Script.Tree
import LiveScene.Script.ParseFault

/-!
# From tokens to trees

A parser by recursive descent with precedences for operators. `parse` gives
the program or the first fault and its place.

While it reads, the parser knows the names in scope, which ones are
constant, and which outer names the closure at hand has used. `fuel` bounds
the depth of the recursion; every level but a few takes a token, and a token
takes a character, so a multiple of the characters is enough.
-/

namespace LiveScene.Script

/-- Limits of what the parser accepts; 0 is no limit. -/
structure ParseLimits where
  maxString : Nat
  maxArray : Nat
  maxMap : Nat
  maxDepth : Nat
  maxFunctionDepth : Nat
  refuseEval : Bool
  deriving DecidableEq, Repr

/-- What the place in the script allows. -/
structure Setting where
  level : Nat
  breakable : Bool
  top : Bool
  inFunction : Bool
  /-- Whether a bar ends the expression. -/
  barEnds : Bool

/-- The greatest depth of an expression at a place; functions have their own. -/
def ParseLimits.depthIn (l : ParseLimits) (s : Setting) : Nat :=
  if s.inFunction then l.maxFunctionDepth else l.maxDepth

/-- What the parser has left and knows. -/
structure ParseState where
  limits : ParseLimits
  rest : List Located
  /-- Names in scope, newest first, and whether they are constant. -/
  scope : List (String × Bool)
  /-- Outer names used in the closure at hand, oldest first. -/
  outside : List Ident
  /-- Functions defined so far, with their numbers of parameters. -/
  functions : List (String × Nat)

/-- A step of the parser. -/
abbrev Parse := StateT ParseState (Except ParseError)

namespace Parse

/-- Stop with a fault. -/
def fail {α : Type} (fault : ParseFault) (place : Place) : Parse α := throw ⟨fault, place⟩

/-- The token ahead. -/
def peek : Parse Located := do
  match (← get).rest with
  | t :: _ => return t
  | [] => return (.eof, .start)

/-- Take the token ahead; the end stays. -/
def next : Parse Located := do
  let t ← peek
  modify fun s => match s.rest with
    | _ :: r :: rest => { s with rest := r :: rest }
    | _ => s
  return t

/-- Take the token ahead if it is the given one. -/
def take (t : Token) : Parse Bool := do
  if (← peek).1 = t then
    let _ ← next
    return true
  else return false

/-- Stop at a token: with its own fault if it is a bad one. -/
def failAt {α : Type} (t : Located) (fault : ParseFault) : Parse α :=
  match t.1 with
  | .bad f => fail (.lexical f) t.2
  | _ => fail fault t.2

/-- One level deeper into an expression. -/
def deeper (s : Setting) : Parse Setting := do
  let (_, p) ← peek
  let limit := (← get).limits.depthIn s
  if limit ≠ 0 ∧ limit < s.level + 1 then fail .tooDeep p
  else return { s with level := s.level + 1 }

/-- A name to be bound. -/
def name : Parse Ident := do
  let t ← next
  match t.1 with
  | .name n => return ⟨n, t.2⟩
  | .reserved n => if isNameText n then fail (.reservedName n) t.2 else fail .variableExpected t.2
  | _ => failAt t .variableExpected

/-- Put a name into scope. -/
def bind (n : String) (constant : Bool) : Parse Unit :=
  modify fun s => { s with scope := (n, constant) :: s.scope }

/-- Run a step and take the names it bound out of scope again. -/
def inScope {α : Type} (step : Parse α) : Parse α := do
  let outer := (← get).scope
  let a ← step
  modify fun s => { s with scope := outer }
  return a

/-- Note the use of a variable, which is an outer one if it is not in scope. -/
def useName (n : Ident) : Parse Unit :=
  modify fun s =>
    if s.scope.any (·.1 = n.name) || s.functions.any (·.1 = n.name) ||
        s.outside.any (·.name = n.name) then s
    else { s with outside := s.outside ++ [n] }

end Parse

/-- The precedence of an operator, 0 for what is none. -/
def precedence : Token → Nat
  | .mark "||" | .mark "^" | .mark "|" => 30
  | .mark "&&" | .mark "&" => 60
  | .mark "==" | .mark "!=" => 90
  | .word "in" | .mark "!in" => 110
  | .mark "<" | .mark "<=" | .mark ">" | .mark ">=" => 130
  | .mark "??" => 135
  | .mark ".." | .mark "..=" => 140
  | .mark "+" | .mark "-" => 150
  | .mark "*" | .mark "/" | .mark "%" => 180
  | .mark "**" => 190
  | .mark "<<" | .mark ">>" => 210
  | _ => 0

/-- Operators of assignments with the operation they stand for. -/
def assignment? : Token → Option String
  | .mark "=" => some ""
  | .mark "+=" => some "+"
  | .mark "-=" => some "-"
  | .mark "*=" => some "*"
  | .mark "/=" => some "/"
  | .mark "%=" => some "%"
  | .mark "**=" => some "**"
  | .mark "<<=" => some "<<"
  | .mark ">>=" => some ">>"
  | .mark "&=" => some "&"
  | .mark "|=" => some "|"
  | .mark "^=" => some "^"
  | _ => none

/-- The constant a token stands for. -/
def Token.literal? : Token → Option Literal
  | .int n => some (.int n)
  | .float x => some (.float x)
  | .char c => some (.char c)
  | .str s => some (.str s)
  | .word "true" => some (.bool true)
  | .word "false" => some (.bool false)
  | .mark "()" => some .unit
  | _ => none

/-- The spelling of an operator. -/
def Token.spelling : Token → String
  | .mark s | .word s | .reserved s | .name s => s
  | _ => ""

/-- What kind of value an expression is known to have where a boolean or
something to iterate over is wanted. -/
def Expr.knownKind : Expr → Option String
  | .literal v _ => match v with
    | .unit => some "()"
    | .bool _ => some "a boolean"
    | .int _ => some "a number"
    | .float _ => some "a floating-point number"
    | .char _ => some "a character"
    | .str _ => some "a string"
  | .text .. => some "a string"
  | .array .. => some "an array"
  | .map .. => some "an object map"
  | _ => none

/-- The expression, unless it is known not to be a boolean. -/
def ensureBool (e : Expr) : Parse Expr :=
  match e.knownKind with
  | none | some "a boolean" => return e
  | some kind => Parse.fail (.mismatch "a boolean expression" kind) e.startPlace

/-- The expression, unless it is known not to be iterable. -/
def ensureIterable (e : Expr) : Parse Expr :=
  match e with
  | .array .. | .literal (.str _) _ | .text .. => return e
  | _ => match e.knownKind with
    | none => return e
    | some kind => Parse.fail (.mismatch "an iterable value" kind) e.startPlace

/-- A block where a condition should stand is a fault. -/
def ensureNoBlock : Parse Unit := do
  let (t, p) ← Parse.peek
  if t = .mark "\x7b" then Parse.fail (.expected "a boolean") p

/-- An assignment where a condition should stand is a fault. -/
def ensureNoAssignment : Parse Unit := do
  let (t, p) ← Parse.peek
  if t = .mark "=" then
    Parse.fail (.lexical (.improperSymbol "=" "Possibly a typo of '=='?")) p

/-- Whether an index that is written out can be one of the base. -/
def checkIndex (base idx : Expr) : Parse Unit :=
  let unindexable := match base with
    | .literal (.float _) _ | .literal (.char _) _ | .literal (.bool _) _ | .literal .unit _ => true
    | .both .. | .either .. => true
    | _ => false
  let wrong (why : String) := Parse.fail (.malformedIndex why) idx.startPlace
  let notIndexable :=
    Parse.fail (.malformedIndex "Only arrays, object maps and strings can be indexed")
      base.startPlace
  match idx with
  | .literal (.int _) _ =>
    if unindexable then notIndexable
    else match base with
      | .map .. => wrong "Object map expects string index, not a number"
      | _ => return ()
  | .literal (.str _) _ | .text .. =>
    if unindexable then notIndexable
    else match base with
      | .array .. | .literal (.str _) _ | .text .. =>
        wrong "Array or string expects numeric index, not a string"
      | .literal (.int _) _ => notIndexable
      | _ => return ()
  | .literal (.float _) _ => wrong "Array access expects integer index, not a float"
  | .literal (.char _) _ => wrong "Array access expects integer index, not a character"
  | .literal .unit _ => wrong "Array access expects integer index, not ()"
  | .literal (.bool _) _ | .both .. | .either .. =>
    wrong "Array access expects integer index, not a boolean"
  | _ => return ()

/-- An operator with its operands. -/
def makeBinary (op : Token) (lhs rhs : Expr) (place : Place) : Parse Expr := do
  match op with
  | .mark "||" =>
    let rhs ← ensureBool rhs
    return .either (← ensureBool lhs) rhs
  | .mark "&&" =>
    let rhs ← ensureBool rhs
    return .both (← ensureBool lhs) rhs
  | .mark "??" => return .orElse lhs rhs
  | .mark "!in" => return .unary "!" (.binary "in" lhs rhs lhs.startPlace) place
  | .word "in" => return .binary "in" lhs rhs lhs.startPlace
  | t => return .binary t.spelling lhs rhs place

/-- The place of a call in a chain of accesses that should be assignable. -/
def callInChain : Expr → Option Place
  | .index b _ _ | .prop b _ _ => callInChain b
  | .method _ n _ _ => some n.place
  | _ => none

/-- The base of a chain of accesses. -/
def chainBase : Expr → Expr
  | .index b _ _ | .prop b _ _ | .method b _ _ _ => chainBase b
  | e => e

/-- An assignment, if its target can be one. -/
def makeAssignment (op : String) (target value : Expr) (place : Place) : Parse Stmt := do
  match target with
  | .var [] n =>
    match (← get).scope.lookup n.name with
    | some true => Parse.fail (.assignConstant n.name) n.place
    | _ => return .assign op target value place
  | .var .. | .this _ => return .assign op target value place
  | .index .. | .prop .. | .method .. =>
    match callInChain target with
    | some p => Parse.fail .assignInvalid p
    | none =>
      match chainBase target with
      | .var .. | .this _ => return .assign op target value place
      | base => Parse.fail .assignInvalid base.place
  | .both .. | .either .. | .orElse .. =>
    if op = "" then Parse.fail (.lexical (.improperSymbol "=" "Possibly a typo of '=='?")) place
    else Parse.fail .assignInvalid target.place
  | e =>
    if e.isConstant then Parse.fail (.assignConstant "") e.startPlace
    else Parse.fail .assignInvalid e.place

/-- A value that is written out, or a range of whole numbers. -/
def caseValue : Expr → Parse (Literal ⊕ Int × Int × Bool)
  | .literal v _ => return .inl v
  | .binary ".." (.literal (.int a) _) (.literal (.int b) _) _ => return .inr (a, b, false)
  | .binary "..=" (.literal (.int a) _) (.literal (.int b) _) _ => return .inr (a, b, true)
  | e => Parse.fail (.expected "a literal") e.startPlace

/-- The setting inside of a function. -/
def functionSetting : Setting where
  level := 0
  breakable := false
  top := false
  inFunction := true
  barEnds := false

/-- The setting at the top of a script. -/
def topSetting : Setting where
  level := 0
  breakable := false
  top := true
  inFunction := false
  barEnds := false

mutual

/-- An expression. -/
def parseExpr (fuel : Nat) (s : Setting) : Parse Expr := do
  match fuel with
  | 0 => Parse.fail .tooDeep (← Parse.peek).2
  | fuel + 1 =>
    let s ← Parse.deeper s
    let lhs ← parseUnary fuel s
    parseBinary fuel s 1 lhs

/-- The operators behind an operand that bind stronger than `parent`. -/
def parseBinary (fuel : Nat) (s : Setting) (parent : Nat) (lhs : Expr) : Parse Expr := do
  match fuel with
  | 0 => Parse.fail .tooDeep (← Parse.peek).2
  | fuel + 1 =>
    let (op, p) ← Parse.peek
    if s.barEnds && op = .mark "|" then return lhs
    match op with
    | .reserved r => if !isNameText r then Parse.fail (.unknownOperator r) p
    | _ => pure ()
    let prec := precedence op
    let toRight := op = .mark "**"
    if prec < parent || (prec = parent && !toRight) then return lhs
    let _ ← Parse.next
    let rhs ← parseUnary fuel s
    let (op', _) ← Parse.peek
    let prec' := if s.barEnds && op' = .mark "|" then 0 else precedence op'
    let rhs ←
      if (prec = prec' && toRight) || prec < prec' then
        do parseBinary fuel (← Parse.deeper s) prec rhs
      else pure rhs
    let s ← Parse.deeper s
    parseBinary fuel s parent (← makeBinary op lhs rhs p)

/-- An operand with the operators in front of it. A sign in front of a
number becomes part of it. -/
def parseUnary (fuel : Nat) (s : Setting) : Parse Expr := do
  match fuel with
  | 0 => Parse.fail .tooDeep (← Parse.peek).2
  | fuel + 1 =>
    let (t, p) ← Parse.peek
    match t with
    | .eof => Parse.fail .incomplete p
    | .mark "-" =>
      let _ ← Parse.next
      match ← parseUnary fuel (← Parse.deeper s) with
      | .literal (.int n) _ =>
        if fitsInt (-n) then return .literal (.int (-n)) p
        else return .literal (.float (-(Float.ofInt n))) p
      | .literal (.float x) _ => return .literal (.float (-x)) p
      | e => return .unary "-" e p
    | .mark "+" =>
      let _ ← Parse.next
      match ← parseUnary fuel (← Parse.deeper s) with
      | .literal (.int n) q => return .literal (.int n) q
      | .literal (.float x) q => return .literal (.float x) q
      | e => return .unary "+" e p
    | .mark "!" =>
      let _ ← Parse.next
      return .unary "!" (← parseUnary fuel (← Parse.deeper s)) p
    | _ => parsePrimary fuel s

/-- An operand. -/
def parsePrimary (fuel : Nat) (s : Setting) : Parse Expr := do
  match fuel with
  | 0 => Parse.fail .tooDeep (← Parse.peek).2
  | fuel + 1 =>
    let (t, p) ← Parse.peek
    let asValue (stmt : Parse Stmt) : Parse Expr := do return .block (← stmt)
    let root ← match t.literal? with
      | some v =>
        let _ ← Parse.next
        pure (.literal v p)
      | none => match t with
        | .eof => Parse.fail .incomplete p
        | .bad f => Parse.fail (.lexical f) p
        | .mark "\x7b" => asValue (do parseBlock fuel (← Parse.deeper s))
        | .mark "(" => parseGroup fuel (← Parse.deeper s)
        | .word "if" => asValue (do parseIf fuel (← Parse.deeper s))
        | .word "while" | .word "loop" => asValue (do parseLoop fuel (← Parse.deeper s))
        | .word "do" => asValue (do parseDo fuel (← Parse.deeper s))
        | .word "for" => asValue (do parseFor fuel (← Parse.deeper s))
        | .word "switch" => asValue (do parseSwitch fuel (← Parse.deeper s))
        | .mark "|" | .mark "||" => parseClosure fuel
        | .segment _ => parseText fuel (← Parse.deeper s)
        | .mark "[" => parseArray fuel (← Parse.deeper s)
        | .mark "#\x7b" => parseMap fuel (← Parse.deeper s)
        | .name n =>
          let _ ← Parse.next
          match (← Parse.peek).1 with
          | .mark "(" | .mark "()" | .mark "::" => pure (.var [] ⟨n, p⟩)
          | _ =>
            Parse.useName ⟨n, p⟩
            pure (.var [] ⟨n, p⟩)
        | .reserved n =>
          let _ ← Parse.next
          let calls := (← Parse.peek).1 = .mark "(" || (← Parse.peek).1 = .mark "()"
          if calls && callableWords.contains n then pure (.var [] ⟨n, p⟩)
          else if n = "this" then
            if s.inFunction then pure (.this p)
            else Parse.fail (.lexical (.improperSymbol n "'this' can only be used in functions")) p
          else Parse.fail (.reservedName n) p
        | t => Parse.fail (.lexical (.unexpected t.spelling)) p
    parsePostfix fuel s root

/-- Calls, paths and accesses behind an operand. -/
def parsePostfix (fuel : Nat) (s : Setting) (lhs : Expr) : Parse Expr := do
  match fuel with
  | 0 => Parse.fail .tooDeep (← Parse.peek).2
  | fuel + 1 =>
    let (t, _) ← Parse.peek
    match t, lhs with
    | .mark "(", .var path n =>
      let _ ← Parse.next
      parsePostfix fuel s (.call path n (← parseArgs fuel s n.name))
    | .mark "()", .var path n =>
      let _ ← Parse.next
      parsePostfix fuel s (.call path n [])
    | .mark "::", .var path n =>
      let _ ← Parse.next
      let member ← Parse.name
      parsePostfix fuel s (.var (path ++ [n]) member)
    | .mark m, lhs =>
      if m = "[" ∨ m = "?[" then
        let _ ← Parse.next
        let s' ← Parse.deeper s
        let idx ← parseExpr fuel { s' with barEnds := false }
        checkIndex lhs idx
        let close ← Parse.peek
        if close.1 = .mark "]" then
          let _ ← Parse.next
          parsePostfix fuel s (.index lhs idx (m = "?["))
        else Parse.failAt close (.missing "]" "for a matching [ in this index expression")
      else if m = "." ∨ m = "?." then
        let _ ← Parse.next
        let s' ← Parse.deeper s
        let (t, p) ← Parse.peek
        let member ← match t with
          | .name n => pure (⟨n, p⟩ : Ident)
          | .reserved n =>
            if methodWords.contains n then pure ⟨n, p⟩ else Parse.fail (.reservedName n) p
          | _ => Parse.fail .propertyExpected p
        let _ ← Parse.next
        let lenient : Bool := m = "?."
        match (← Parse.peek).1 with
        | .mark "(" =>
          let _ ← Parse.next
          parsePostfix fuel s (.method lhs member (← parseArgs fuel s' member.name) lenient)
        | .mark "()" =>
          let _ ← Parse.next
          parsePostfix fuel s (.method lhs member [] lenient)
        | _ =>
          match t with
          | .reserved n => Parse.fail (.reservedName n) p
          | _ => parsePostfix fuel s (.prop lhs member lenient)
      else return lhs
    | _, lhs => return lhs

/-- The arguments of a call, from behind the opening parenthesis. -/
def parseArgs (fuel : Nat) (s : Setting) (function : String) : Parse (List Expr) := do
  match fuel with
  | 0 => Parse.fail .tooDeep (← Parse.peek).2
  | fuel + 1 =>
    let t ← Parse.peek
    match t.1 with
    | .eof =>
      Parse.fail (.missing ")"
        ("to close the arguments list of this function call '" ++ function ++ "'")) t.2
    | .bad f => Parse.fail (.lexical f) t.2
    | .mark ")" =>
      let _ ← Parse.next
      return []
    | _ =>
      let s ← Parse.deeper s
      parseArgsFrom fuel { s with barEnds := false } function []

/-- The arguments of a call after those in `done`. -/
def parseArgsFrom (fuel : Nat) (s : Setting) (function : String) (done : List Expr) :
    Parse (List Expr) := do
  match fuel with
  | 0 => Parse.fail .tooDeep (← Parse.peek).2
  | fuel + 1 =>
    let done ←
      if (← Parse.peek).1 = .mark ")" then pure done
      else do pure ((← parseExpr fuel s) :: done)
    let t ← Parse.peek
    match t.1 with
    | .mark ")" =>
      let _ ← Parse.next
      return done.reverse
    | .mark "," =>
      let _ ← Parse.next
      parseArgsFrom fuel s function done
    | .eof =>
      Parse.fail (.missing ")"
        ("to close the arguments list of this function call '" ++ function ++ "'")) t.2
    | _ =>
      Parse.failAt t
        (.missing "," ("to separate the arguments to function call '" ++ function ++ "'"))

/-- An expression in parentheses. -/
def parseGroup (fuel : Nat) (s : Setting) : Parse Expr := do
  match fuel with
  | 0 => Parse.fail .tooDeep (← Parse.peek).2
  | fuel + 1 =>
    let _ ← Parse.next
    let s ← Parse.deeper s
    let e ← parseExpr fuel { s with barEnds := false }
    let t ← Parse.next
    if t.1 = .mark ")" then return e
    else Parse.failAt t (.missing ")" "for a matching ( in this expression")

/-- Text with inserted expressions. -/
def parseText (fuel : Nat) (s : Setting) : Parse Expr := do
  match fuel with
  | 0 => Parse.fail .tooDeep (← Parse.peek).2
  | fuel + 1 =>
    let (_, p) ← Parse.peek
    return .text (← parseTextFrom fuel s []) p

/-- The parts of a text after those in `done`. -/
def parseTextFrom (fuel : Nat) (s : Setting) (done : List Expr) : Parse (List Expr) := do
  match fuel with
  | 0 => Parse.fail .tooDeep (← Parse.peek).2
  | fuel + 1 =>
    let t ← Parse.next
    match t.1 with
    | .segment v =>
      let done := if v = "" then done else .literal (.str v) t.2 :: done
      let body ← parseBlock fuel { s with barEnds := false }
      parseTextFrom fuel s (.block body :: done)
    | .str v => return (if v = "" then done else .literal (.str v) t.2 :: done).reverse
    | _ => Parse.failAt t .incomplete

/-- An array. -/
def parseArray (fuel : Nat) (s : Setting) : Parse Expr := do
  match fuel with
  | 0 => Parse.fail .tooDeep (← Parse.peek).2
  | fuel + 1 =>
    let (_, p) ← Parse.next
    return .array (← parseItems fuel { s with barEnds := false } 0 []) p

/-- The items of an array after the `count` ones in `done`. -/
def parseItems (fuel : Nat) (s : Setting) (count : Nat) (done : List Expr) :
    Parse (List Expr) := do
  match fuel with
  | 0 => Parse.fail .tooDeep (← Parse.peek).2
  | fuel + 1 =>
    let limit := (← get).limits.maxArray
    if limit ≠ 0 ∧ limit ≤ count then
      Parse.fail (.literalTooLarge "Size of array literal" limit) (← Parse.peek).2
    let t ← Parse.peek
    match t.1 with
    | .mark "]" =>
      let _ ← Parse.next
      return done.reverse
    | .eof => Parse.fail (.missing "]" "to end this array literal") t.2
    | _ =>
      let e ← parseExpr fuel (← Parse.deeper s)
      let t ← Parse.peek
      match t.1 with
      | .mark "," =>
        let _ ← Parse.next
        parseItems fuel s (count + 1) (e :: done)
      | .mark "]" => parseItems fuel s (count + 1) (e :: done)
      | .eof => Parse.fail (.missing "]" "to end this array literal") t.2
      | _ => Parse.failAt t (.missing "," "to separate the items of this array literal")

/-- An object map. -/
def parseMap (fuel : Nat) (s : Setting) : Parse Expr := do
  match fuel with
  | 0 => Parse.fail .tooDeep (← Parse.peek).2
  | fuel + 1 =>
    let (_, p) ← Parse.next
    return .map (← parseFields fuel { s with barEnds := false } []) p

/-- The properties of an object map after those in `done`. -/
def parseFields (fuel : Nat) (s : Setting) (done : List (Ident × Expr)) :
    Parse (List (Ident × Expr)) := do
  match fuel with
  | 0 => Parse.fail .tooDeep (← Parse.peek).2
  | fuel + 1 =>
    let missingEnd := ParseFault.missing "\x7d" "to end this object map literal"
    let t ← Parse.next
    match t.1 with
    | .mark "\x7d" => return done.reverse
    | .eof => Parse.fail missingEnd t.2
    | _ =>
      let name : String ← match t.1 with
        | .name n => pure n
        | .str n => pure n
        | .reserved n =>
          if isNameText n then Parse.fail (.reservedName n) t.2
          else Parse.fail .propertyExpected t.2
        | _ => Parse.failAt t .propertyExpected
      if done.any (·.1.name = name) then Parse.fail (.duplicateProperty name) t.2
      let colon ← Parse.next
      if colon.1 ≠ .mark ":" then
        Parse.failAt colon
          (.missing ":" ("to follow the property '" ++ name ++ "' in this object map literal"))
      let limit := (← get).limits.maxMap
      if limit ≠ 0 ∧ limit ≤ done.length then
        Parse.fail (.literalTooLarge "Number of properties in object map literal" limit)
          (← Parse.peek).2
      let e ← parseExpr fuel (← Parse.deeper s)
      let done := (⟨name, t.2⟩, e) :: done
      let t ← Parse.peek
      match t.1 with
      | .mark "," =>
        let _ ← Parse.next
        parseFields fuel s done
      | .mark "\x7d" => parseFields fuel s done
      | .name _ => Parse.fail (.missing "," "to separate the items of this object map literal") t.2
      | _ => Parse.failAt t missingEnd

/-- A function without a name. Outer names it uses are outer ones of the
place around it too, unless they are in scope there. -/
def parseClosure (fuel : Nat) : Parse Expr := do
  match fuel with
  | 0 => Parse.fail .tooDeep (← Parse.peek).2
  | fuel + 1 =>
    let (t, p) ← Parse.next
    let around ← get
    modify fun st => { st with scope := [], outside := [] }
    let params ←
      if t = .mark "||" then pure []
      else if ← Parse.take (.mark "|") then pure []
      else parseClosureParams fuel []
    modify fun st => { st with scope := params.map (·, false) }
    let body ← parseStmt fuel functionSetting
    let captured := (← get).outside
    modify fun st => { st with scope := around.scope, outside := around.outside }
    captured.forM Parse.useName
    return .closure captured params body p

/-- The parameters of a closure after those in `done`. -/
def parseClosureParams (fuel : Nat) (done : List String) : Parse (List String) := do
  match fuel with
  | 0 => Parse.fail .tooDeep (← Parse.peek).2
  | fuel + 1 =>
    let t ← Parse.next
    match t.1 with
    | .mark "|" => return done.reverse
    | .name n =>
      if done.contains n then Parse.fail (.duplicateParameter "" n) t.2
      let sep ← Parse.next
      match sep.1 with
      | .mark "|" => return (n :: done).reverse
      | .mark "," => parseClosureParams fuel (n :: done)
      | _ => Parse.failAt sep (.missing "," "to separate the parameters of anonymous function")
    | _ =>
      Parse.failAt t
        (.missing "|" "to close the parameters list of anonymous function or closure")

/-- A statement. -/
def parseStmt (fuel : Nat) (s : Setting) : Parse Stmt := do
  match fuel with
  | 0 => Parse.fail .tooDeep (← Parse.peek).2
  | fuel + 1 =>
    let (t, p) ← Parse.peek
    let deeper := Parse.deeper s
    match t with
    | .eof => return .skip p
    | .mark ";" =>
      let _ ← Parse.next
      return .skip p
    | .mark "\x7b" => parseBlock fuel (← deeper)
    | .word "fn" =>
      if s.top then parseFn fuel else Parse.fail .misplacedFunction p
    | .word "private" =>
      let _ ← Parse.next
      let t ← Parse.peek
      if t.1 ≠ .word "fn" then Parse.failAt t (.missing "fn" "following 'private'")
      else if s.top then parseFn fuel
      else Parse.fail .misplacedFunction p
    | .word "if" => parseIf fuel (← deeper)
    | .word "switch" => parseSwitch fuel (← deeper)
    | .word "while" | .word "loop" => parseLoop fuel (← deeper)
    | .word "do" => parseDo fuel (← deeper)
    | .word "for" => parseFor fuel (← deeper)
    | .word "continue" =>
      if s.breakable then
        let _ ← Parse.next
        return .next p
      else Parse.fail .misplacedBreak p
    | .word "break" =>
      if s.breakable then
        let _ ← Parse.next
        match (← Parse.peek).1 with
        | .eof | .mark "\x7d" | .mark ";" => return .leave none p
        | _ => return .leave (some (← parseExpr fuel (← deeper))) p
      else Parse.fail .misplacedBreak p
    | .word "return" =>
      let _ ← Parse.next
      return .give (← parseResult fuel s) p
    | .word "throw" =>
      let _ ← Parse.next
      return .raise (← parseResult fuel s) p
    | .word "try" => parseTry fuel (← deeper)
    | .word "let" => parseLet fuel (← deeper) false
    | .word "const" => parseLet fuel (← deeper) true
    | .word "import" => parseImport fuel (← deeper)
    | .word "export" =>
      if !s.top then Parse.fail .misplacedExport p
      let _ ← Parse.next
      match (← Parse.peek).1 with
      | .word "let" => parseLet fuel (← deeper) false
      | .word "const" => parseLet fuel (← deeper) true
      | _ =>
        let n ← Parse.name
        Parse.useName n
        if ← Parse.take (.word "as") then
          let _ ← Parse.name
        return .skip p
    | _ => parseExprStmt fuel (← deeper)

/-- The optional expression behind `return` and `throw`. -/
def parseResult (fuel : Nat) (s : Setting) : Parse (Option Expr) := do
  match fuel with
  | 0 => Parse.fail .tooDeep (← Parse.peek).2
  | fuel + 1 =>
    match (← Parse.peek).1 with
    | .eof | .mark ";" => return none
    | .mark "\x7d" =>
      if s.top then return some (← parseExpr fuel (← Parse.deeper s)) else return none
    | _ => return some (← parseExpr fuel (← Parse.deeper s))

/-- An expression or an assignment. -/
def parseExprStmt (fuel : Nat) (s : Setting) : Parse Stmt := do
  match fuel with
  | 0 => Parse.fail .tooDeep (← Parse.peek).2
  | fuel + 1 =>
    let e ← parseExpr fuel s
    let (t, p) ← Parse.peek
    match assignment? t with
    | none => return .expr e
    | some op =>
      let _ ← Parse.next
      let value ← parseExpr fuel s
      makeAssignment op e value p

/-- Statements in braces. -/
def parseBlock (fuel : Nat) (s : Setting) : Parse Stmt := do
  match fuel with
  | 0 => Parse.fail .tooDeep (← Parse.peek).2
  | fuel + 1 =>
    let t ← Parse.next
    if t.1 ≠ .mark "\x7b" then Parse.failAt t (.missing "\x7b" "to start a statement block")
    let inside := { s with top := false, barEnds := false }
    return .block (← Parse.inScope (parseStmts fuel inside [])) t.2

/-- The statements of a block after those in `done`. -/
def parseStmts (fuel : Nat) (s : Setting) (done : List Stmt) : Parse (List Stmt) := do
  match fuel with
  | 0 => Parse.fail .tooDeep (← Parse.peek).2
  | fuel + 1 =>
    let t ← Parse.peek
    match t.1 with
    | .mark "\x7d" =>
      let _ ← Parse.next
      return done.reverse
    | .eof => Parse.fail (.missing "\x7d" "to terminate this block") t.2
    | _ =>
      let stmt ← parseStmt fuel s
      match stmt with
      | .skip _ => parseStmts fuel s done
      | stmt =>
        let done := stmt :: done
        let t ← Parse.peek
        match t.1 with
        | .mark "\x7d" => parseStmts fuel s done
        | .mark ";" =>
          let _ ← Parse.next
          parseStmts fuel s done
        | _ =>
          if stmt.endsItself then parseStmts fuel s done
          else Parse.failAt t (.missing ";" "to terminate this statement")

/-- A condition with its branches. -/
def parseIf (fuel : Nat) (s : Setting) : Parse Stmt := do
  match fuel with
  | 0 => Parse.fail .tooDeep (← Parse.peek).2
  | fuel + 1 =>
    let (_, p) ← Parse.next
    ensureNoBlock
    let guard ← ensureBool (← parseExpr fuel s)
    ensureNoAssignment
    let yes ← parseBlock fuel s
    if ← Parse.take (.word "else") then
      let no ←
        if (← Parse.peek).1 = .word "if" then parseIf fuel s else parseBlock fuel s
      return .cond guard yes no p
    else return .cond guard yes (.skip p) p

/-- A loop with its guard in front, or without one. -/
def parseLoop (fuel : Nat) (s : Setting) : Parse Stmt := do
  match fuel with
  | 0 => Parse.fail .tooDeep (← Parse.peek).2
  | fuel + 1 =>
    let (t, p) ← Parse.next
    let guard ←
      if t = .word "while" then
        ensureNoBlock
        let guard ← ensureBool (← parseExpr fuel s)
        ensureNoAssignment
        pure (some guard)
      else pure none
    return .loop guard (← parseBlock fuel { s with breakable := true }) p

/-- A loop with its guard behind the body. -/
def parseDo (fuel : Nat) (s : Setting) : Parse Stmt := do
  match fuel with
  | 0 => Parse.fail .tooDeep (← Parse.peek).2
  | fuel + 1 =>
    let (_, p) ← Parse.next
    let body ← parseBlock fuel { s with breakable := true }
    let t ← Parse.next
    let wanted ← match t.1 with
      | .word "while" => pure true
      | .word "until" => pure false
      | _ => Parse.fail (.missing "while" "for the do statement") t.2
    ensureNoBlock
    let guard ← ensureBool (← parseExpr fuel s)
    ensureNoAssignment
    return .until body guard wanted p

/-- A loop over the items of a value. -/
def parseFor (fuel : Nat) (s : Setting) : Parse Stmt := do
  match fuel with
  | 0 => Parse.fail .tooDeep (← Parse.peek).2
  | fuel + 1 =>
    let (_, p) ← Parse.next
    let (name, counter) ←
      if ← Parse.take (.mark "(") then
        let name ← Parse.name
        let t ← Parse.peek
        if !(← Parse.take (.mark ",")) then
          Parse.fail (.missing "," "after the iteration variable name") t.2
        let counter ← Parse.name
        if counter.name = name.name then Parse.fail (.duplicateVariable counter.name) counter.place
        let t ← Parse.peek
        if !(← Parse.take (.mark ")")) then
          Parse.fail (.missing ")" "to close the iteration variable") t.2
        pure (name, some counter)
      else do pure (← Parse.name, none)
    let t ← Parse.next
    if t.1 ≠ .word "in" then Parse.failAt t (.missing "in" "after the iteration variable")
    ensureNoBlock
    let source ← ensureIterable (← parseExpr fuel s)
    let body ← Parse.inScope do
      match counter with
      | some c => Parse.bind c.name false
      | none => pure ()
      Parse.bind name.name false
      parseBlock fuel { s with breakable := true }
    return .each name counter source body p

/-- A choice between cases. -/
def parseSwitch (fuel : Nat) (s : Setting) : Parse Stmt := do
  match fuel with
  | 0 => Parse.fail .tooDeep (← Parse.peek).2
  | fuel + 1 =>
    let (_, p) ← Parse.next
    let subject ← parseExpr fuel s
    let t ← Parse.next
    if t.1 ≠ .mark "\x7b" then Parse.failAt t (.missing "\x7b" "to start a switch block")
    let (cases, otherwise) ← parseCases fuel { s with top := false } [] none
    return .choice subject cases (otherwise.map (·.1)) p

/-- The cases of a choice after those in `done`; a default with its place. -/
def parseCases (fuel : Nat) (s : Setting) (done : List Case) (otherwise : Option (Stmt × Place)) :
    Parse (List Case × Option (Stmt × Place)) := do
  match fuel with
  | 0 => Parse.fail .tooDeep (← Parse.peek).2
  | fuel + 1 =>
    let missingEnd := ParseFault.missing "\x7d" "to end this switch block"
    let t ← Parse.peek
    match t.1 with
    | .mark "\x7d" =>
      let _ ← Parse.next
      return (done.reverse, otherwise)
    | .eof => Parse.fail missingEnd t.2
    | _ =>
      match otherwise with
      | some (_, p) => Parse.fail .defaultCaseNotLast p
      | none => pure ()
      let isDefault := t.1 = .word "_"
      let (values, guard) ←
        if isDefault then
          let _ ← Parse.next
          let t ← Parse.peek
          if t.1 = .word "if" then Parse.fail .defaultCaseGuarded t.2
          pure ([], none)
        else
          let values ← parseCaseValues fuel s []
          if ← Parse.take (.word "if") then
            ensureNoBlock
            let guard ← ensureBool (← parseExpr fuel s)
            ensureNoAssignment
            pure (values, some guard)
          else pure (values, none)
      let arrow ← Parse.next
      if arrow.1 ≠ .mark "=>" then Parse.failAt arrow (.missing "=>" "in this switch case")
      let body ← parseStmt fuel s
      let values ← values.mapM caseValue
      let literals := values.filterMap Sum.getLeft?
      let ranges := values.filterMap Sum.getRight?
      let after ← Parse.peek
      match after.1 with
      | .mark "," =>
        let _ ← Parse.next
      | .mark "\x7d" => pure ()
      | .eof => Parse.fail missingEnd after.2
      | .bad f => Parse.fail (.lexical f) after.2
      | _ =>
        if !body.endsItself then
          Parse.fail (.missing "," "to separate the items in this switch block") after.2
      if isDefault then parseCases fuel s done (some (body, t.2))
      else parseCases fuel s (.mk literals ranges guard body :: done) none

/-- The values of a case, separated by bars, after those in `done`. -/
def parseCaseValues (fuel : Nat) (s : Setting) (done : List Expr) : Parse (List Expr) := do
  match fuel with
  | 0 => Parse.fail .tooDeep (← Parse.peek).2
  | fuel + 1 =>
    let e ← parseExpr fuel { s with barEnds := true }
    if ← Parse.take (.mark "|") then parseCaseValues fuel s (e :: done)
    else return (e :: done).reverse

/-- The definition of a variable or a constant. -/
def parseLet (fuel : Nat) (s : Setting) (constant : Bool) : Parse Stmt := do
  match fuel with
  | 0 => Parse.fail .tooDeep (← Parse.peek).2
  | fuel + 1 =>
    let (_, p) ← Parse.next
    let name ← Parse.name
    let value ←
      if ← Parse.take (.mark "=") then do pure (some (← parseExpr fuel s)) else pure none
    Parse.bind name.name constant
    return .bind constant name value p

/-- An import. -/
def parseImport (fuel : Nat) (s : Setting) : Parse Stmt := do
  match fuel with
  | 0 => Parse.fail .tooDeep (← Parse.peek).2
  | fuel + 1 =>
    let (_, p) ← Parse.next
    let source ← parseExpr fuel s
    let name ← if ← Parse.take (.word "as") then do pure (some (← Parse.name)) else pure none
    return .load source name p

/-- An attempt with its handler. -/
def parseTry (fuel : Nat) (s : Setting) : Parse Stmt := do
  match fuel with
  | 0 => Parse.fail .tooDeep (← Parse.peek).2
  | fuel + 1 =>
    let (_, p) ← Parse.next
    let body ← parseBlock fuel s
    let t ← Parse.peek
    if !(← Parse.take (.word "catch")) then
      Parse.fail (.missing "catch" "for the 'try' statement") t.2
    let name ←
      if ← Parse.take (.mark "(") then
        let name ← Parse.name
        let t ← Parse.peek
        if !(← Parse.take (.mark ")")) then
          Parse.fail (.missing ")" "to enclose the catch variable") t.2
        pure (some name)
      else pure none
    let handler ← Parse.inScope do
      match name with
      | some n => Parse.bind n.name false
      | none => pure ()
      parseBlock fuel s
    return .attempt body name handler p

/-- The definition of a function. It sees none of the names around it. -/
def parseFn (fuel : Nat) : Parse Stmt := do
  match fuel with
  | 0 => Parse.fail .tooDeep (← Parse.peek).2
  | fuel + 1 =>
    let (_, p) ← Parse.next
    let around ← get
    let t ← Parse.next
    let name ← match t.1 with
      | .name n => pure n
      | .reserved n => Parse.fail (.reservedName n) t.2
      | _ => Parse.fail .functionNameExpected t.2
    let open_ ← Parse.peek
    let params ← match open_.1 with
      | .mark "()" =>
        let _ ← Parse.next
        pure []
      | .mark "(" =>
        let _ ← Parse.next
        if ← Parse.take (.mark ")") then pure [] else parseParams fuel name []
      | _ => Parse.fail (.parametersExpected name) open_.2
    let body ← Parse.peek
    if body.1 ≠ .mark "\x7b" then Parse.fail (.bodyExpected name) body.2
    modify fun st => { st with scope := params.map (·, false), outside := [] }
    let block ← parseBlock fuel functionSetting
    if around.functions.contains (name, params.length) then
      Parse.fail (.duplicateFunction name params.length) p
    modify fun st =>
      { st with
        scope := around.scope
        outside := around.outside
        functions := (name, params.length) :: around.functions }
    return .define name params block p

/-- The parameters of a function after those in `done`. -/
def parseParams (fuel : Nat) (function : String) (done : List String) : Parse (List String) := do
  match fuel with
  | 0 => Parse.fail .tooDeep (← Parse.peek).2
  | fuel + 1 =>
    let t ← Parse.next
    match t.1 with
    | .mark ")" => return done.reverse
    | .name n =>
      if done.contains n then Parse.fail (.duplicateParameter function n) t.2
      let sep ← Parse.next
      match sep.1 with
      | .mark ")" => return (n :: done).reverse
      | .mark "," => parseParams fuel function (n :: done)
      | _ =>
        Parse.failAt sep
          (.missing "," ("to separate the parameters of function '" ++ function ++ "'"))
    | _ =>
      Parse.failAt t
        (.missing ")" ("to close the parameters list of function '" ++ function ++ "'"))

end

/-- The statements at the top of a script after those in `done`. -/
def parseTop (rounds fuel : Nat) (s : Setting) (done : List Stmt) : Parse (List Stmt) := do
  match rounds with
  | 0 => return done.reverse
  | rounds + 1 =>
    if (← Parse.peek).1 = .eof then return done.reverse
    let stmt ← parseStmt fuel s
    match stmt with
    | .skip _ => parseTop rounds fuel s done
    | .define .. => parseTop rounds fuel s (stmt :: done)
    | stmt =>
      let done := stmt :: done
      let t ← Parse.peek
      match t.1 with
      | .eof => return done.reverse
      | .mark ";" =>
        if stmt.endsItself then parseTop rounds fuel s done
        else
          let _ ← Parse.next
          parseTop rounds fuel s done
      | _ =>
        if stmt.endsItself then parseTop rounds fuel s done
        else Parse.failAt t (.missing ";" "to terminate this statement")

/-- The program of a script, or why there is none. -/
def parse (limits : ParseLimits) (script : List Char) : Except ParseError Program :=
  let ts := tokens ⟨limits.maxString, limits.refuseEval⟩ script
  -- a script has two tokens more than characters at most
  let n := script.length + 2
  match (parseTop (n + 1) (16 * n + 16) topSetting []).run ⟨limits, ts, [], [], []⟩ with
  | .ok (body, _) => .ok ⟨body⟩
  | .error e => .error e

end LiveScene.Script
