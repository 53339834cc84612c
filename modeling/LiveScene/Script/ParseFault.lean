import LiveScene.Script.Token

/-!
# Why a script does not parse

The causes, their wording, and a cause with its place. The last two causes
are those of the check of names, which runs on scripts that parse.
-/

namespace LiveScene.Script

/-- Why a script does not parse. -/
inductive ParseFault where
  | lexical (fault : LexFault)
  /-- The script ends where an expression should start. -/
  | incomplete
  | unknownOperator (op : String)
  /-- A token is missing, for the reason given. -/
  | missing (token reason : String)
  | reservedName (name : String)
  | variableExpected
  | propertyExpected
  /-- An expression of the given kind is expected. -/
  | expected (kind : String)
  /-- An expression of one kind is expected and another is there. -/
  | mismatch (wanted found : String)
  | duplicateProperty (name : String)
  | literalTooLarge (what : String) (limit : Nat)
  | malformedIndex (why : String)
  | assignConstant (name : String)
  | assignInvalid
  | functionNameExpected
  | parametersExpected (function : String)
  | bodyExpected (function : String)
  | duplicateParameter (function parameter : String)
  | duplicateFunction (function : String) (parameters : Nat)
  | misplacedFunction
  | misplacedBreak
  | misplacedExport
  | defaultCaseNotLast
  | defaultCaseGuarded
  | duplicateVariable (name : String)
  | tooDeep
  | undefinedVariable (name : String)
  | undefinedModule (name : String)
  deriving DecidableEq, Repr, Inhabited

namespace ParseFault

/-- The wording of the cause. -/
def message : ParseFault → String
  | lexical f => f.message
  | incomplete => "Script is incomplete"
  | unknownOperator op => "Unknown operator: '" ++ op ++ "'"
  | missing t why => "Expecting '" ++ t ++ "' " ++ why
  | reservedName n =>
    "'" ++ n ++ "' is a reserved " ++ (if isNameText n then "keyword" else "symbol")
  | variableExpected => "Expecting name of a variable"
  | propertyExpected => "Expecting name of a property"
  | expected kind => "Expecting " ++ kind ++ " expression"
  | mismatch wanted found => "Expecting " ++ wanted ++ ", not " ++ found
  | duplicateProperty n => "Duplicated property for object map literal: " ++ n
  | literalTooLarge what n => what ++ " exceeds the maximum limit (" ++ toString n ++ ")"
  | malformedIndex why => why
  | assignConstant n =>
    if n = "" then "Cannot assign to a constant value" else "Cannot assign to constant " ++ n
  | assignInvalid => "Expression cannot be assigned to"
  | functionNameExpected => "Expecting function name in function declaration"
  | parametersExpected f => "Expecting parameters for function '" ++ f ++ "'"
  | bodyExpected f => "Expecting body statement block for function '" ++ f ++ "'"
  | duplicateParameter f p => "Duplicated parameter " ++ p ++ " for function " ++ f
  | duplicateFunction f n =>
    "Function " ++ f ++ " with " ++
      (if n = 0 then "no parameters" else if n = 1 then "1 parameter"
        else toString n ++ " parameters") ++ " already exists"
  | misplacedFunction =>
    "Function definitions must be at global level and cannot be inside a block or another function"
  | misplacedBreak => "Break statement should only be used inside a loop"
  | misplacedExport => "Export statement can only appear at global level"
  | defaultCaseNotLast => "Default switch case must be the last"
  | defaultCaseGuarded => "This switch case cannot have a condition"
  | duplicateVariable n => "Duplicated variable name: " ++ n
  | tooDeep => "Expression exceeds maximum complexity"
  | undefinedVariable n => "Undefined variable: " ++ n
  | undefinedModule n => "Undefined module: " ++ n

end ParseFault

/-- A cause and its place. -/
structure ParseError where
  fault : ParseFault
  place : Place
  deriving DecidableEq, Repr, Inhabited

end LiveScene.Script
