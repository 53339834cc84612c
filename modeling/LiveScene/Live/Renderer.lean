import LiveScene.Live.Settings
import LiveScene.Scene.Render
import LiveScene.Web.Url

/-!
# Asking the renderer

The renderer is asked by posting a request to one path below its endpoint.
`Reply` is what comes back from the network, and `Reply.result` what it means:
a result, a rejection to be shown, or a body that is no answer of a renderer.
-/

namespace LiveScene.Live

open Diagnostics Scene Web

/-- Why there is nothing to show. -/
inductive RenderFailure where
  /-- The renderer, or the way to it, refuses. -/
  | rejected (record : ErrorRecord)
  /-- The body is not a result. -/
  | mismatch (fault : BodyFault) (body : String)
  deriving DecidableEq, Repr

/-- The wording of the failure. -/
def RenderFailure.message : RenderFailure → String
  | rejected r => "render rejected: " ++ r.message
  | mismatch f _ => "render protocol mismatch: " ++ f.message

/-- What a render came to. -/
abbrev Rendered := Except RenderFailure RenderResult

/-- What comes back from the network. -/
inductive Reply where
  /-- A whole answer. -/
  | answered (status : Nat) (body : String)
  /-- An answer whose body breaks off. -/
  | brokenOff (status : Nat)
  /-- No answer, or nobody there. -/
  | silent
  deriving DecidableEq, Repr

/-- Whether a status means success. -/
def isSuccess (status : Nat) : Bool := 200 ≤ status && status < 300

/-- Whether answers of a status have no body, whatever follows them. -/
def isBodyless (status : Nat) : Bool := status = 101 || status = 204 || status = 304

/-- The failure of a request that got no answer. -/
def unanswered (url : String) : RenderFailure :=
  .rejected (.unpositioned ("error sending request for url (" ++ url ++ ")"))

/-- What an answer means. -/
def answerResult (status : Nat) (body : String) : Rendered :=
  if isSuccess status then
    match parseBody body with
    | .ok r => .ok r
    | .error f => .error (.mismatch f body)
  else .error (.rejected (.unpositioned body))

/-- Whether a status ends an exchange; after others an answer is still to come. -/
def isFinal (status : Nat) : Bool := status = 101 || (200 ≤ status && status ≤ 999)

/-- What a reply from an address means. -/
def Reply.result (url : String) : Reply → Rendered
  | answered status body =>
    if !isFinal status then .error (unanswered url)
    else answerResult status (if isBodyless status then "" else body)
  | brokenOff status =>
    if !isFinal status then .error (unanswered url)
    else if isBodyless status then answerResult status ""
    else .error (.rejected (.unpositioned "error decoding response body"))
  | silent => .error (unanswered url)

/-- Whether a reply leaves a request without an answer. -/
def Reply.isUnsent : Reply → Bool
  | answered status _ | brokenOff status => !isFinal status
  | silent => true

/-- The path that takes requests. -/
def processPath : String := "/api/process"

/-- The address below an endpoint. -/
def processUrl (endpoint : String) : String :=
  String.ofList (endpoint.toList.reverse.dropWhile (· = '/')).reverse ++ processPath

/-- A request on its way. -/
structure Posted where
  url : Url
  body : RenderRequest
  /-- How long to wait for the answer. -/
  timeoutMs : Nat
  deriving Repr

/-- A render: its outcome, and whether the sending of the request failed. -/
structure Attempt where
  outcome : Rendered
  unsent : Bool
  deriving Repr

/-- Something that may need one answer from the network. -/
inductive Asking (α : Type) where
  | done (a : α)
  | asks (posted : Posted) (next : Reply → α)

namespace Asking

/-- What becomes of the answer. -/
def map {α β : Type} (f : α → β) : Asking α → Asking β
  | done a => .done (f a)
  | asks posted next => .asks posted fun r => f (next r)

/-- Ask a network. -/
def through {α : Type} (network : Posted → Reply) : Asking α → α
  | done a => a
  | asks posted next => next (network posted)

end Asking

/-- A request that cannot be sent. -/
def refuse (message : String) : Asking Attempt :=
  .done ⟨.error (.rejected (.unpositioned message)), true⟩

/-- Ask the renderer of settings. -/
def ask (r : RenderSettings) (request : RenderRequest) : Asking Attempt :=
  match Url.parse (processUrl r.endpoint) with
  | .notAddress => refuse "builder error"
  | .foreign text => refuse ("builder error for url (" ++ text ++ ")")
  | .address u => .asks ⟨u, request, r.timeoutMs⟩ fun reply => ⟨reply.result u.text, reply.isUnsent⟩

end LiveScene.Live
