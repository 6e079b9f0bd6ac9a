import MatrixSession.Client.Basic
import MatrixSession.Negotiation

/-!
Connecting to a server: finding out which versions it offers, from the cache if that is fresh
enough, and settling on the highest one that both sides know.
-/
namespace MatrixSession

/-- What a server offers. A result that comes from the server is cached; a failure leaves the
    cache as it is. -/
def discover (server : Url) (maxAge timeout : Option Nat) : Call ServerSupports := do
  let key := cacheKey server.text
  match ← Call.ask (.consult key maxAge) with
  | some supports => pure supports
  | none =>
    let command ← Call.ofExcept (Endpoint.versions.build server)
    let response ← Call.send command ⟨true, timeout⟩
    let supports ← Call.ofExcept (response.decode ServerSupports.ofBytes?)
    Call.ask (.remember key supports)
    pure supports

namespace Client

structure Settings where
  serverUrl : String
  config : ClientConfig
  catalog : Catalog
  refreshBuilder : RefreshBuilder

namespace Settings

def ofUrl (serverUrl : String) : Settings := ⟨serverUrl, .default, .builtin, .standard⟩

end Settings

def negotiate (settings : Settings) (server : Url) (known : List SupportedVersion)
    (offered : List String) : Except Failure Client := do
  let version ← Negotiation.settle server.text known offered
  let features ← (settings.catalog.capabilities version.identifier).mapError .catalog
  .ok ⟨server, version, features, settings.refreshBuilder, settings.config⟩

/-- Connects to a server. A malformed address or catalog is found before anything is sent. -/
def connect (settings : Settings) : Call Client := do
  let server ← Call.ofExcept ((Url.parse settings.serverUrl).mapError .invalidUrl)
  let known ← Call.ofExcept (settings.catalog.supportedVersions.mapError .catalog)
  let supports ← discover server settings.config.cacheMaxAge (some settings.config.requestTimeout)
  Call.ofExcept (negotiate settings server known supports.versions)

end Client

end MatrixSession
