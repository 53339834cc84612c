import LiveScene.Command.Program
import LiveScene.Web.Http
import Std.Async.DNS
import Std.Async.Signal
import Std.Async.TCP
import Std.Async.Timer

/-!
# The program

Reads files, asks the renderer over the network, and prints what the commands
come to. Everything it decides is decided by `Command.conduct`.
-/

namespace LiveScene.Main

open Command Live Web Std.Async Std.Net

/-- The text of a file, if it can be read. -/
def readText? (path : String) : IO (Option String) := do
  try
    return some (← IO.FS.readFile path)
  catch _ => return none

/-- What comes in until the other side ends the connection or breaks it off. -/
partial def receiveAll (c : TCP.Socket.Client) (done : ByteArray) : Async ByteArray := do
  let more ← try c.recv? 65536 catch _ => pure none
  match more with
  | some bytes => receiveAll c (done ++ bytes)
  | none => return done

/-- A port of a machine. -/
def socketAddress (ip : IPAddr) (port : UInt16) : SocketAddress :=
  match ip with
  | .v4 a => .v4 ⟨a, port⟩
  | .v6 a => .v6 ⟨a, port⟩

/-- Send bytes to a host and receive what it answers. -/
def exchange (u : Url) (bytes : ByteArray) : Async ByteArray := do
  let port := u.port.getD (Url.usualPort u.scheme)
  let name := String.ofList (u.host.toList.filter fun c => c ≠ '[' && c ≠ ']')
  let found ← DNS.getAddrInfo name (toString port)
  match found[0]? with
  | none => return .empty
  | some ip =>
    let c ← TCP.Socket.Client.mk
    c.connect (socketAddress ip port.toUInt16)
    c.send bytes
    receiveAll c .empty

/-- The reply that received bytes hold. -/
def replyOf (bytes : ByteArray) : Reply :=
  match Response.ofBytes? bytes.toList with
  | none => .silent
  | some ⟨status, none⟩ => .brokenOff status
  | some ⟨status, some body⟩ => .answered status (Response.text body)

/-- Post a request and wait for the reply no longer than it says. -/
def post (posted : Posted) : IO Reply := do
  if posted.url.scheme ≠ "http" then return .silent
  let late : Async ByteArray := do
    sleep (.ofNat posted.timeoutMs)
    return .empty
  try
    let bytes := postBytes posted.url posted.body.toJson.settled.print
    return replyOf (← (Async.race (exchange posted.url bytes) late).block)
  catch _ => return .silent

/-- Ask over the network. -/
def overNetwork {α : Type} : Asking α → IO α
  | .done a => return a
  | .asks posted next => return next (← post posted)

/-- Log entries of the journal. -/
def logEntries (log : LogConfig) (entries : List Entry) : IO Unit := do
  for e in entries do
    if let some line := log.line? e then IO.eprintln line

/-- Print how the program ends. -/
def conclude (log : LogConfig) (e : Exit) : IO UInt32 := do
  logEntries log e.journal
  if let some v := e.printed then IO.println (v.settled.pretty "")
  if let some text := e.complaint then IO.eprintln text
  return e.code.toUInt32

/-- Look at a file again and again until the program is interrupted. -/
partial def watchFile (log : LogConfig) (s : Settings) (file : String) (interval : Nat)
    (stop : AsyncTask Int) (w : Watching) : IO UInt32 := do
  let (next, lines) ← overNetwork (w.round s (← readText? file))
  logEntries log (next.pipeline.journal.drop w.pipeline.journal.length)
  for line in lines do
    IO.eprintln line.toJson.print
  if ← IO.hasFinished stop then return 0
  IO.sleep interval.toUInt32
  watchFile log s file interval stop next

/-- The files that a command line names, read beforehand. -/
def filesFor (args : List String) : IO Files := do
  match Invocation.ofArgs args with
  | .error _ => return fun _ => none
  | .ok i =>
    let config ← (i.config.map readText?).getD (pure none)
    let source ← readText? i.file
    return fun path => if path = i.file then source else config

/-- The logging that a command line asks for. -/
def logOf (args : List String) : LogConfig :=
  match Invocation.ofArgs args with
  | .error _ => .default
  | .ok i => { LogConfig.ofVerbosity i.verbose with format := i.logFormat }

/-- Carry the program out. -/
def carryOut (args : List String) : IO UInt32 := do
  let log := logOf args
  match conduct (← filesFor args) args with
  | .ends asking => conclude log (← overNetwork asking)
  | .watches s file interval w =>
    let stop ← (← Signal.Waiter.mk .sigint false).wait
    watchFile log s file interval stop w

end LiveScene.Main

def main (args : List String) : IO UInt32 := LiveScene.Main.carryOut args
