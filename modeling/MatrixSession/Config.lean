import MatrixSession.Text.Blank
import MatrixSession.Text.Decimal
import MatrixSession.Text.Utf8

/-!
Settings of a client and how they are read from the environment. Each setting has a variable of
its own; a value that is no number of seconds leaves the default in place.
-/
namespace MatrixSession

/-- Times are in milliseconds. Without a maximal age, cached discovery results never expire. -/
structure ClientConfig where
  requestTimeout : Nat
  lockTimeout : Nat
  cacheMaxAge : Option Nat
  lockName : String
  deriving DecidableEq, Repr

abbrev Environment := List (String × List UInt8)

namespace Environment

def text? (env : Environment) (name : String) : Option String :=
  (env.lookup name).bind Utf8.decode?

/-- A number of seconds that fits 64 bits, with blanks around it and a plus sign allowed. -/
def seconds? (env : Environment) (name : String) : Option Nat := do
  let value ← env.text? name
  Decimal.readUnsigned? UInt64.size (Text.trimmed Text.isBlank value.toList)

end Environment

namespace ClientConfig

def default : ClientConfig := ⟨30000, 10000, some 3600000, "matrix_client_token_refresh"⟩

instance : Inhabited ClientConfig := ⟨default⟩

def maxAgeOfSeconds (seconds : Nat) : Option Nat :=
  if seconds = 0 then none else some (seconds * 1000)

def ofEnvironment (env : Environment) : ClientConfig where
  requestTimeout :=
    ((env.seconds? "COMMLINK_REQUEST_TIMEOUT_SECS").map (· * 1000)).getD default.requestTimeout
  lockTimeout :=
    ((env.seconds? "COMMLINK_LOCK_TIMEOUT_SECS").map (· * 1000)).getD default.lockTimeout
  cacheMaxAge :=
    ((env.seconds? "COMMLINK_VERSIONS_CACHE_TTL_SECS").map maxAgeOfSeconds).getD
      default.cacheMaxAge
  lockName := default.lockName

end ClientConfig

end MatrixSession
