import MatrixSession.Config
import MatrixSession.Endpoint
import MatrixSession.Procedure

/-!
A client: a server, the version negotiated with it, and the features that come with the version.
What a caller needs of a version or of features can be asked before anything is sent.
-/
namespace MatrixSession

abbrev RefreshBuilder := Url → String → Except Failure Command

def Endpoint.build (e : Endpoint) (server : Url) : Except Failure Command :=
  (e.command server).mapError .invalidUrl

def RefreshBuilder.standard : RefreshBuilder := fun server token =>
  (Endpoint.refresh token).build server

theorem RefreshBuilder.standard_eq (server : Url) (token : String) :
    standard server token =
      match server.withSegments? ["_matrix", "client", "v3", "refresh"] with
      | none => .error (.invalidUrl .cannotBeBase)
      | some url => .ok ⟨"POST", url, (Endpoint.refresh token).body?, .empty, false⟩ := by
  unfold standard Endpoint.build Endpoint.command Command.new Endpoint.segments
  cases server.withSegments? ["_matrix", "client", "v3", "refresh"] <;> rfl

structure Client where
  server : Url
  version : SupportedVersion
  features : FeatureSet
  refreshBuilder : RefreshBuilder
  config : ClientConfig

namespace Client

def MeetsVersion (c : Client) (required : ApiVersion) : Prop := required ≤ c.version.version

instance (c : Client) (required : ApiVersion) : Decidable (c.MeetsVersion required) :=
  inferInstanceAs (Decidable (required ≤ c.version.version))

def requireVersion (c : Client) (required : ApiVersion) : Except Failure Unit :=
  if c.MeetsVersion required then .ok ()
  else .error (.versionTooLow required c.version.version)

def Implements (c : Client) (r : Requirement) : Prop := r.MetBy c.features

instance (c : Client) (r : Requirement) : Decidable (c.Implements r) :=
  inferInstanceAs (Decidable (r.MetBy c.features))

def require (c : Client) (r : Requirement) : Except Failure Unit :=
  if c.Implements r then .ok () else .error (.unsupportedFeature r)

def requireAll (c : Client) (requirements : List Requirement) : Except Failure Unit :=
  requirements.forM c.require

/-- What an endpoint asks of the client: the version first, then the feature. -/
def allow (c : Client) (e : Endpoint) : Except Failure Unit := do
  e.minVersion?.forM c.requireVersion
  e.feature?.forM fun f => c.require (.one f)

def options (c : Client) (statusErrors : Bool) : SendOptions :=
  ⟨statusErrors, some c.config.requestTimeout⟩

end Client

end MatrixSession
