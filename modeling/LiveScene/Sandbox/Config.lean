import LiveScene.Json

/-!
# Settings of the sandbox

How many scripts run at once, how long an answer may take, and how much a
script may do. Of the limits on scripts a 0 means no limit, except for the
depth of calls.
-/

namespace LiveScene.Sandbox

/-- Settings of the sandbox. -/
structure Config where
  /-- Contexts that run at once; further requests wait. -/
  maxContexts : Nat
  /-- Contexts kept for the next request. -/
  maxIdle : Nat
  /-- How long an answer may take. -/
  timeoutMs : Nat
  maxOperations : Nat
  maxCallLevels : Nat
  maxExprDepth : Nat
  maxFunctionExprDepth : Nat
  maxStringSize : Nat
  maxArraySize : Nat
  maxMapSize : Nat
  deriving DecidableEq, Repr, Inhabited

namespace Config

/-- The settings where nothing is said. -/
def default : Config where
  maxContexts := 4
  maxIdle := 1
  timeoutMs := 10000
  maxOperations := 5000000
  maxCallLevels := 64
  maxExprDepth := 64
  maxFunctionExprDepth := 32
  maxStringSize := 1048576
  maxArraySize := 100000
  maxMapSize := 10000

/-- The JSON form. -/
def toJson (c : Config) : Json :=
  .obj [("max_contexts", .nat c.maxContexts), ("max_idle", .nat c.maxIdle),
    ("timeout_ms", .nat c.timeoutMs), ("max_operations", .nat c.maxOperations),
    ("max_call_levels", .nat c.maxCallLevels), ("max_expr_depth", .nat c.maxExprDepth),
    ("max_function_expr_depth", .nat c.maxFunctionExprDepth),
    ("max_string_size", .nat c.maxStringSize), ("max_array_size", .nat c.maxArraySize),
    ("max_map_size", .nat c.maxMapSize)]

/-- Decode settings; what is missing keeps its default. -/
def ofJson? (v : Json) : Option Config := do
  let slot ← v.record? ["max_contexts", "max_idle", "timeout_ms", "max_operations",
    "max_call_levels", "max_expr_depth", "max_function_expr_depth", "max_string_size",
    "max_array_size", "max_map_size"] 0
  let size (name : String) (n : Nat) : Option Nat := Json.defaulted n Json.size? (slot name)
  return {
    maxContexts := ← size "max_contexts" default.maxContexts
    maxIdle := ← size "max_idle" default.maxIdle
    timeoutMs := ← size "timeout_ms" default.timeoutMs
    maxOperations := ← size "max_operations" default.maxOperations
    maxCallLevels := ← size "max_call_levels" default.maxCallLevels
    maxExprDepth := ← size "max_expr_depth" default.maxExprDepth
    maxFunctionExprDepth := ← size "max_function_expr_depth" default.maxFunctionExprDepth
    maxStringSize := ← size "max_string_size" default.maxStringSize
    maxArraySize := ← size "max_array_size" default.maxArraySize
    maxMapSize := ← size "max_map_size" default.maxMapSize }

end Config

end LiveScene.Sandbox
