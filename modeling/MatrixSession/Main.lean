import MatrixSession.Http.Exchange
import MatrixSession.Http.Wire
import MatrixSession.Lock
import MatrixSession.Probe
import Std.Async.DNS
import Std.Async.TCP
import Std.Async.Timer

/-!
The probe as a program. Requests go over plain HTTP, each on a connection of its own; a server
behind TLS is not reached. Tokens, locks and discovery results live as long as the program.
-/
namespace MatrixSession.Program

open Std.Async Std.Net

structure Holdings where
  tokens : TokenPair
  locks : LockTable
  cache : VersionCache

def variableNames : List String :=
  ["MATRIX_SERVER", "MATRIX_ACCESS_TOKEN", "MATRIX_REFRESH_TOKEN", "COMMLINK_REQUEST_TIMEOUT_SECS",
    "COMMLINK_LOCK_TIMEOUT_SECS", "COMMLINK_VERSIONS_CACHE_TTL_SECS"]

def readEnvironment : IO Environment :=
  variableNames.filterMapM fun name => do
    pure ((← IO.getEnv name).map fun value => (name, Utf8.encode value))

def addressOf : Host → Async (Option IPAddr)
  | .domain name => do pure (← DNS.getAddrInfo name "" none)[0]?
  | .ipv4 address =>
    let part (shift : UInt32) : UInt8 := (address >>> shift).toUInt8
    pure (some (.v4 (.ofParts (part 24) (part 16) (part 8) (part 0))))
  | .ipv6 [a, b, c, d, e, f, g, h] => pure (some (.v6 (.ofParts a b c d e f g h)))
  | .ipv6 _ => pure none

def socketAddress (port : UInt16) : IPAddr → SocketAddress
  | .v4 addr => .v4 ⟨addr, port⟩
  | .v6 addr => .v6 ⟨addr, port⟩

/-- Collects what comes over a connection until it ends, or until nothing that could still come would
    make a difference. -/
partial def receive (client : TCP.Socket.Client) (method : String) (sofar : IO.Ref ByteArray) :
    Async (Option Http.Ending) := do
  let more ← try some <$> client.recv? 65536 catch _ => pure none
  match more with
  | none => pure (some .lost)
  | some none => pure (some .closed)
  | some (some bytes) =>
    sofar.modify (· ++ bytes)
    if (Http.Delivery.ofBytes? method (← sofar.get).toList none).isSome then pure none
    else receive client method sofar

def connect (url : Url) (request : Http.Request) (sofar : IO.Ref ByteArray) :
    Async Http.Conduct := do
  match url.scheme, url.host? with
  | "http", some host =>
    let some address ← addressOf host | return .refuse
    let client ← TCP.Socket.Client.mk
    client.connect (socketAddress (url.port?.getD 80) address)
    let name := host.text ++ (url.port?.map fun p => ":" ++ Decimal.numeral p.toNat).getD ""
    client.send (ByteArray.mk (request.wire name).toArray)
    let ending ← receive client request.method sofar
    pure (.answer (← sofar.get).toList ending)
  | _, _ => pure .refuse

def observe (url : Url) (request : Http.Request) (timeout : Option Nat) : IO Http.Conduct := do
  let sofar ← IO.mkRef ByteArray.empty
  let attempt : Async Http.Conduct :=
    try connect url request sofar catch _ => pure .refuse
  let limited : Async Http.Conduct :=
    match timeout with
    | none => attempt
    | some limit => do
      let late : Async Http.Conduct := do
        sleep (.ofNat limit)
        pure (.answer (← sofar.get).toList (some .lost))
      Async.race attempt late
  limited.block

def send (command : Command) (options : SendOptions) : IO (Except Failure Response) := do
  let conduct ←
    match Http.Request.ofCommand? command with
    | none => pure .refuse
    | some request => observe command.url request options.timeout
  pure ((Http.transmit conduct command options).getD (.error (.transport .http)))

def carryOut : (op : Operation) → StateT Holdings IO op.Reply
  | .readToken kind => do pure ((← get).tokens.get kind)
  | .writeToken kind token =>
    modify fun h => { h with tokens := h.tokens.put kind (some token) }
  | .send command options => send command options
  | .acquire lock _ =>
    modifyGet fun h =>
      let (granted, locks) := h.locks.tryAcquire lock 0
      (granted, { h with locks })
  | .release lock => modify fun h => { h with locks := h.locks.release lock }
  | .consult key maxAge => do pure ((← get).cache.lookup (← IO.monoMsNow) key maxAge)
  | .remember key supports => do
    let now ← IO.monoMsNow
    modify fun h => { h with cache := h.cache.store now key supports }

end MatrixSession.Program

open MatrixSession in
def main : IO UInt32 := do
  let probe := Probe.ofEnvironment (← Program.readEnvironment)
  let (report, _) ← (probe.report.interpret Program.carryOut).run ⟨probe.tokens, .empty, .empty⟩
  let outcome := Probe.Outcome.ofReport report
  IO.print outcome.printed
  outcome.complaint.forM IO.eprintln
  pure outcome.exitCode.toUInt32
