import LiveScene.Sandbox.Engine

/-!
# Execution contexts

A context evaluates one script after the other, each in a fresh scope. Once
it is cancelled every script in it stops at its first operation.
-/

namespace LiveScene.Sandbox

/-- A context. -/
structure Context where
  id : Nat
  cancelled : Bool
  /-- How many scripts it has answered. -/
  served : Nat
  deriving DecidableEq, Repr, Inhabited

namespace Context

/-- A new context. -/
def fresh (id : Nat) : Context := ⟨id, false, 0⟩

/-- Stop what the context runs, now and later. -/
def cancel (c : Context) : Context := { c with cancelled := true }

/-- Evaluate code in the context. -/
def evaluate (config : Config) (c : Context) (code : String) : Evaluation :=
  Sandbox.evaluate config c.cancelled code

/-- The context after it answered. -/
def answered (c : Context) : Context := { c with served := c.served + 1 }

end Context

end LiveScene.Sandbox
