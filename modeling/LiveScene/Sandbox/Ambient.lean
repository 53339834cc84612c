/-!
# What a script may count on

The one module scripts can import, its functions, and which of these take a
list of arguments. Both the check of imports and the running of scripts go
by these declarations.
-/

namespace LiveScene.Sandbox

/-- A module that exists without a definition in the script. -/
structure Ambient where
  moduleName : String
  functions : List String
  /-- Functions that take a list of arguments. -/
  variadic : List String
  deriving DecidableEq, Repr

/-- The most arguments a call with a list of arguments may have. -/
def maxVariadicArguments : Nat := 16

namespace Ambient

/-- The module of implicit scenes. -/
def implicit : Ambient where
  moduleName := "implicit"
  functions :=
    ["circle", "rect", "and", "or", "not", "subtract", "modulate", "translate", "break_here",
      "freeze", "smooth_outer", "smooth_inner", "shape", "figure", "scene", "singleton_scene"]
  variadic := ["and", "or", "figure"]

/-- Whether the module has a function of that name. -/
def declares (a : Ambient) (function : String) : Bool := a.functions.contains function

/-- The most arguments a function with a list of arguments takes. -/
def maxArguments? (a : Ambient) (function : String) : Option Nat :=
  if a.variadic.contains function then some maxVariadicArguments else none

end Ambient

end LiveScene.Sandbox
