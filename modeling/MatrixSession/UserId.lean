import MatrixSession.Url.Basic

/-!
User ids such as `@alice:example.org`. What follows the first colon names a server; what stands
before it is not restricted.
-/
namespace MatrixSession.UserId

inductive Fault where
  | noHost (homeserver : String)
  | missingColon (id : String)
  | invalidServerName (id : String)
  deriving DecidableEq, Repr

def Fault.text : Fault → String
  | noHost homeserver => homeserver ++ " has no host"
  | missingColon id => id ++ ": required colon is missing"
  | invalidServerName id => id ++ ": server name is not a valid IP address or domain name"

def isHostChar (c : Char) : Bool := c.isAlphanum || c == '-' || c == '.'

def isPortPart : List Char → Bool
  | [] => true
  | ':' :: port => (Decimal.readUnsigned? UInt16.size port).isSome
  | _ => false

def isServerName : List Char → Bool
  | [] => false
  | '[' :: rest =>
    match Text.splitFirst? ']' rest with
    | none => false
    | some (address, port) => (Ipv6.parse? address).isSome && isPortPart port
  | text => (text.takeWhile (· ≠ ':')).all isHostChar && isPortPart (text.dropWhile (· ≠ ':'))

def validate (id : String) : Except Fault String :=
  match Text.splitFirst? ':' id.toList with
  | none => .error (.missingColon id)
  | some (_, server) => if isServerName server then .ok id else .error (.invalidServerName id)

def bareHost (host : String) : String :=
  match host.toList with
  | 'w' :: 'w' :: 'w' :: '.' :: rest => String.ofList rest
  | _ => host

def serverName? (homeserver : Url) : Option String :=
  homeserver.host?.map fun host =>
    bareHost host.text ++ (homeserver.port?.map fun p => ":" ++ Decimal.numeral p.toNat).getD ""

/-- The id of a user on a homeserver. A name that starts with `@` is taken for a whole id. -/
def qualify (username : String) (homeserver : Url) : Except Fault String :=
  if username.toList.head? = some '@' then validate username
  else match serverName? homeserver with
    | none => .error (.noHost homeserver.text)
    | some server => validate ("@" ++ username ++ ":" ++ server)

end MatrixSession.UserId
