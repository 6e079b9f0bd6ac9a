import MatrixSession.Url.Host

/-!
URLs by their parts, and the text they are written as. A path is either a list of segments, each
written behind a slash, or a text that takes no segments.
-/
namespace MatrixSession

namespace Url

structure Authority where
  username : String
  password : String
  host : Option Host
  port : Option UInt16
  deriving DecidableEq, Repr

inductive Path where
  | segments (list : List String)
  | plain (text : String)
  deriving DecidableEq, Repr

end Url

/-- A URL. Segments, query and fragment are kept in their encoded form. With `marked`, a `/.`
    keeps the empty first segment of a path without an authority from being read as one. -/
structure Url where
  scheme : String
  authority : Option Url.Authority
  marked : Bool
  path : Url.Path
  query : Option String
  fragment : Option String
  deriving DecidableEq, Repr

namespace Url

def Path.text : Path → String
  | segments list => String.join (list.map ("/" ++ ·))
  | plain text => text

def Authority.userInfo (a : Authority) : String :=
  if a.username = "" ∧ a.password = "" then ""
  else if a.password = "" then a.username ++ "@"
  else a.username ++ ":" ++ a.password ++ "@"

def Authority.text (a : Authority) : String :=
  a.userInfo ++ (a.host.map Host.text).getD "" ++
    (a.port.map fun p => ":" ++ Decimal.numeral p.toNat).getD ""

def host? (u : Url) : Option Host := u.authority.bind (·.host)

def port? (u : Url) : Option UInt16 := u.authority.bind (·.port)

def text (u : Url) : String :=
  u.scheme ++ ":" ++ (u.authority.map fun a => "//" ++ a.text).getD "" ++
    (if u.marked then "/." else "") ++ u.path.text ++
    (u.query.map ("?" ++ ·)).getD "" ++ (u.fragment.map ("#" ++ ·)).getD ""

/-- Schemes whose backslashes are slashes and whose hosts are domains or addresses. -/
def isSpecial (scheme : String) : Bool :=
  ["http", "https", "ws", "wss", "ftp", "file"].contains scheme

def defaultPort? (scheme : String) : Option UInt16 :=
  if scheme = "http" ∨ scheme = "ws" then some 80
  else if scheme = "https" ∨ scheme = "wss" then some 443
  else if scheme = "ftp" then some 21
  else none

end Url

end MatrixSession
