import LiveScene.Json

/-!
# Tokens of the script language

A token keeps its spelling: `word` is a keyword, `mark` is punctuation or an
operator, `reserved` is set aside for later use or for built-in functions.
A text with inserted expressions comes as `segment`s, each followed by a
block, and ends with a `str`.
-/

namespace LiveScene.Script

/-- The least whole number of scripts. -/
def minInt : Int := -9223372036854775808

/-- The greatest whole number of scripts. -/
def maxInt : Int := 9223372036854775807

/-- Whether a whole number is one of scripts. -/
def fitsInt (n : Int) : Bool := minInt ≤ n && n ≤ maxInt

/-- A place in a script: line and column in characters, both from 1 on. Neither goes beyond
`lastPart`. -/
structure Place where
  line : Nat
  col : Nat
  deriving DecidableEq, Repr, Inhabited

namespace Place

/-- The last line and the last column that places tell apart. -/
def lastPart : Nat := 65535

/-- The start of a script. -/
def start : Place := ⟨1, 1⟩

/-- The place `n` characters further on in the line, or the last one of it. -/
def right (p : Place) (n : Nat) : Place := ⟨p.line, min (p.col + n) lastPart⟩

/-- The place behind the end of the line. Behind that of the last line places go on in it. -/
def down (p : Place) : Place := if p.line < lastPart then ⟨p.line + 1, 1⟩ else p.right 1

/-- The place behind a character. -/
def after (p : Place) (c : Char) : Place := if c = '\n' then p.down else p.right 1

end Place

/-- What is wrong with the characters of a token. -/
inductive LexFault where
  /-- A character that starts no token. -/
  | unexpected (text : String)
  /-- A string without its end. -/
  | unterminated
  /-- A string longer than allowed. -/
  | tooLong (limit : Nat)
  | malformedEscape (text : String)
  | malformedNumber (text : String)
  | malformedChar (text : String)
  | malformedName (text : String)
  /-- A symbol with a hint, or without one. -/
  | improperSymbol (symbol hint : String)
  deriving DecidableEq, Repr, Inhabited

/-- The wording of the fault. -/
def LexFault.message : LexFault → String
  | unexpected t => "Unexpected '" ++ t ++ "'"
  | unterminated => "Open string is not terminated"
  | tooLong n => "Length of string exceeds the maximum limit (" ++ toString n ++ ")"
  | malformedEscape t => "Invalid escape sequence: '" ++ t ++ "'"
  | malformedNumber t => "Invalid number: '" ++ t ++ "'"
  | malformedChar t => "Invalid character: '" ++ t ++ "'"
  | malformedName t => "Variable name is not proper: '" ++ t ++ "'"
  | improperSymbol s hint =>
    if hint = "" then "Invalid symbol encountered: '" ++ s ++ "'" else hint

/-- A token. -/
inductive Token where
  | int (n : Int)
  | float (x : Float)
  | char (c : Char)
  | str (s : String)
  /-- Text in front of an inserted expression. -/
  | segment (s : String)
  | name (s : String)
  | word (s : String)
  | mark (s : String)
  | reserved (s : String)
  | bad (fault : LexFault)
  | eof
  deriving DecidableEq, Repr, Inhabited

/-- The keywords. -/
def keywords : List String :=
  ["true", "false", "let", "const", "if", "else", "switch", "do", "while", "until", "loop",
    "for", "in", "continue", "break", "return", "throw", "try", "catch", "import", "export",
    "as", "private", "fn", "_"]

/-- Reserved words that may stand in front of an argument list. -/
def callableWords : List String :=
  ["print", "debug", "type_of", "eval", "Fn", "call", "curry", "is_shared", "is_def_fn",
    "is_def_var"]

/-- Reserved words that may be called behind a dot. -/
def methodWords : List String := ["call", "curry", "type_of", "is_shared"]

/-- Reserved words, callable or not. -/
def reservedWords : List String :=
  callableWords ++ ["this", "var", "static", "begin", "end", "shared", "each", "then", "goto",
    "unless", "exit", "match", "case", "public", "protected", "new", "use", "with", "is",
    "module", "package", "super", "thread", "spawn", "go", "await", "async", "sync", "yield",
    "default", "void", "null", "nil"]

/-- What a reserved symbol gets as a hint where it is not just refused. -/
def symbolHint : String → Option String
  | "===" => some "'===' is not a valid operator. This is not JavaScript! Should it be '=='?"
  | "!==" => some "'!==' is not a valid operator. This is not JavaScript! Should it be '!='?"
  | "->" => some "'->' is not a valid symbol. This is not C or C++!"
  | "<-" => some "'<-' is not a valid symbol. This is not Go! Should it be '<='?"
  | ":=" =>
    some ("':=' is not a valid assignment operator. " ++
      "This is not Go or Pascal! Should it be simply '='?")
  | ":;" => some "':;' is not a valid symbol. Should it be '::'?"
  | "::<" => some "'::<>' is not a valid symbol. This is not Rust! Should it be '::'?"
  | "(*" | "*)" =>
    some "'(* .. *)' is not a valid comment format. This is not Pascal! Should it be '/* .. */'?"
  | "begin" | "end" =>
    some "'begin .. end' is not a valid symbol. This is not Pascal! Should it be '\x7b .. \x7d'?"
  | "#" => some "'#' is not a valid symbol. Should it be '#\x7b'?"
  | _ => none

/-- Whether a text has the form of a name: ASCII letters, digits and
underscores, the first that is no underscore being a letter. -/
def isNameText (s : String) : Bool :=
  let body := s.toList.dropWhile (· = '_')
  s.toList.all (fun c => c.isAlphanum || c = '_') &&
    (match body with
      | c :: _ => c.isAlpha
      | [] => false)

end LiveScene.Script
