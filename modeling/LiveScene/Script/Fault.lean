import LiveScene.Script.Value

/-!
# Why a script fails while it runs

The causes and their wording, and a fault: a cause with its place and the
calls that led to it. Faults that come from the limits of the run itself
cannot be caught by the script, and leave no trace of the calls.
-/

namespace LiveScene.Script

/-- Why a script fails while it runs. -/
inductive Cause where
  | variableNotFound (name : String)
  | functionNotFound (signature : String)
  | moduleNotFound (name : String)
  | arrayIndex (index : Int) (size : Nat)
  | stringIndex (index : Int) (size : Nat)
  | bitIndex (index : Int)
  /-- A property that a type does not have, to be read or to be written. -/
  | unknownProperty (name : String) (reading : Bool) (type : String)
  /-- A type that cannot be indexed by another one. -/
  | noIndexer (type index : String)
  | typeMismatch (found wanted : String)
  | notIterable
  /-- A receiver where there is none. -/
  | noReceiver
  | constantAssigned (name : String)
  /-- A call that would change a constant. -/
  | constantReceiver (function : String)
  | arithmetic (message : String)
  | tooLarge (what : String)
  | thrown (value : Value)
  /-- A failure inside of a function of a module. -/
  | foreign (message : String)
  | tooManyOperations
  | stackOverflow
  | terminated
  deriving Inhabited

namespace Cause

/-- Whether the cause lies in the limits of the run. -/
def isLimit : Cause → Bool
  | tooManyOperations | stackOverflow | terminated | tooLarge _ => true
  | _ => false

/-- The wording of the cause. -/
def message : Cause → String
  | variableNotFound n => "Variable not found: " ++ n
  | functionNotFound s => "Function not found: " ++ s
  | moduleNotFound n => "Module not found: " ++ n
  | arrayIndex i size =>
    "Array index " ++ toString i ++ " out of bounds: " ++
      (if size = 0 then "array is empty"
        else if size = 1 then "only 1 element in array"
        else "only " ++ toString size ++ " elements in array")
  | stringIndex i size =>
    "String index " ++ toString i ++ " out of bounds: " ++
      (if size = 0 then "string is empty"
        else if size = 1 then "only 1 character in string"
        else "only " ++ toString size ++ " characters in string")
  | bitIndex i => "Bit-field index " ++ toString i ++ " out of bounds: only 64 bits in bit-field"
  | unknownProperty n reading type =>
    "Unknown property '" ++ n ++ "' - a " ++ (if reading then "getter" else "setter") ++
      " is not registered for type '" ++ type ++ "'"
  | noIndexer type index => "Indexer unavailable: " ++ type ++ " [" ++ index ++ "]"
  | typeMismatch found wanted =>
    "Data type incorrect: " ++ found ++ " (expecting " ++ wanted ++ ")"
  | noReceiver => "'this' not bound"
  | notIterable => "For loop expects iterable type"
  | constantAssigned n => "Cannot modify constant: " ++ n
  | constantReceiver f => "Non-pure method '" ++ f ++ "' cannot be called on constant"
  | arithmetic m => m
  | tooLarge what => what ++ " too large"
  | thrown v => v.text
  | foreign m => m
  | tooManyOperations => "Too many operations"
  | stackOverflow => "Stack overflow"
  | terminated => "Script terminated"

end Cause

/-- A failure of a run. The calls that led to it are listed outermost first,
each with the name of the function and the place of the call. -/
structure RunFault where
  cause : Cause
  place : Option Place
  calls : List (String × Place)
  deriving Inhabited

namespace RunFault

/-- A failure at a place. -/
def raised (cause : Cause) (place : Place) : RunFault := ⟨cause, some place, []⟩

/-- The failure with a place if it has none yet. -/
def placed (f : RunFault) (place : Place) : RunFault :=
  match f.place, f.calls with
  | none, [] => { f with place := some place }
  | _, _ => f

/-- The failure as seen by the caller of a function. -/
def outOf (f : RunFault) (function : String) (place : Place) : RunFault :=
  if f.cause.isLimit then { f with place := some place }
  else { f with calls := (function, place) :: f.calls }

end RunFault

end LiveScene.Script
