import MatrixSession.Client.Connect
import MatrixSession.Client.Request
import MatrixSession.UserId

/-!
The probe: connects to a server and reports what can be done there. With an access token it also
asks whom the token belongs to, and reports new tokens if that has renewed the old ones.
-/
namespace MatrixSession

structure Probe where
  server : String
  tokens : TokenPair
  config : ClientConfig
  deriving DecidableEq, Repr

namespace Probe

inductive Trouble where
  | negotiating (server : String) (cause : Failure)
  | whoami (cause : Failure)
  | userId (fault : UserId.Fault)
  deriving DecidableEq, Repr

def Trouble.headline : Trouble → String
  | negotiating server _ => "negotiating with " ++ server
  | whoami _ => "whoami"
  | userId fault => (Failure.invalidUserId fault).message

def Trouble.cause? : Trouble → Option Failure
  | negotiating _ cause | whoami cause => some cause
  | userId _ => none

def Trouble.text (t : Trouble) : String :=
  "Error: " ++ t.headline ++
    (t.cause?.map fun cause => "\n\nCaused by:\n    " ++ cause.message).getD ""

/-- A refresh token is of no use without an access token. -/
def ofEnvironment (env : Environment) : Probe where
  server := (env.text? "MATRIX_SERVER").getD "http://localhost:8448"
  tokens :=
    match env.text? "MATRIX_ACCESS_TOKEN" with
    | some access => ⟨some access, env.text? "MATRIX_REFRESH_TOKEN"⟩
    | none => .empty
  config := .ofEnvironment env

def settings (p : Probe) : Client.Settings :=
  { Client.Settings.ofUrl p.server with config := p.config }

def describe (c : Client) : Json.Value :=
  .ofMembers
    [("server", .string c.server.text), ("version", .string c.version.version.text),
      ("identifier", .string c.version.identifier),
      ("features", .array (c.features.toList.map fun f => .string f.name))]

def textOrNull (text : Option String) : Json.Value := (text.map .string).getD .null

def addUser (c : Client) (report : Json.Value) : Procedure (Except Trouble Json.Value) := do
  match ← c.whoami.run with
  | .ok name =>
    pure <| match UserId.qualify name c.server with
      | .ok id => .ok (report.withMember "user_id" (.string id))
      | .error fault => .error (.userId fault)
  | .error .authExpired => pure (.ok report)
  | .error failure => pure (.error (.whoami failure))

def addTokens (p : Probe) (report : Json.Value) : Procedure Json.Value := do
  let access ← Procedure.ask (.readToken .access)
  if access = p.tokens.access then pure report
  else
    let refresh ← Procedure.ask (.readToken .refresh)
    pure <| report.withMember "refreshed_tokens" <| .ofMembers
      [("access_token", textOrNull access), ("refresh_token", textOrNull refresh)]

def report (p : Probe) : Procedure (Except Trouble Json.Value) := do
  match ← (Client.connect p.settings).run with
  | .error failure => pure (.error (.negotiating p.server failure))
  | .ok client =>
    let plain := describe client
    if p.tokens.access.isNone then pure (.ok plain)
    else
      match ← addUser client plain with
      | .error trouble => pure (.error trouble)
      | .ok report =>
        let report ← p.addTokens report
        pure (.ok report)

structure Outcome where
  exitCode : UInt8
  printed : String
  complaint : Option String
  deriving DecidableEq, Repr

def Outcome.ofReport : Except Trouble Json.Value → Outcome
  | .ok report => ⟨0, report.pretty ++ "\n", none⟩
  | .error trouble => ⟨1, "", some trouble.text⟩

end Probe

end MatrixSession
