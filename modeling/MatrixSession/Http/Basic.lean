import MatrixSession.Json.Printer
import MatrixSession.Procedure

/-!
Commands as HTTP requests, and what comes back over a connection. A command becomes a request
only if its header names and values are legal; a response counts only if its head has arrived,
and its body only if all of it has.
-/
namespace MatrixSession.Http

def isTokenChar (c : Char) : Bool :=
  c.isAlphanum || "!#$%&\x27*+-.^_\x60|~".toList.contains c

def isHeaderName (name : String) : Bool := !name.isEmpty && name.toList.all isTokenChar

/-- Header values hold no control characters other than tabs. -/
def isHeaderValue (value : String) : Bool :=
  value.toList.all fun c => c == '\t' || (' ' ≤ c && c ≠ '\x7f')

structure Request where
  method : String
  target : String
  headers : Dictionary String
  body : String

def targetOf (url : Url) : String :=
  let path := url.path.text
  (if path = "" then "/" else path) ++ (url.query.map ("?" ++ ·)).getD ""

/-- The headers of a command. A JSON body is declared unless the command does so itself. -/
def headersOf (c : Command) : Dictionary String :=
  if c.body.isSome && (c.headers.find? "content-type").isNone then
    c.headers.insert "content-type" "application/json"
  else c.headers

def Request.ofCommand? (c : Command) : Option Request :=
  if c.headers.entries.all fun (name, value) => isHeaderName name && isHeaderValue value then
    some ⟨c.method, targetOf c.url, headersOf c, (c.body.map Json.Value.compact).getD ""⟩
  else none

inductive Delivery where
  | failed (fault : TransportFault)
  | broken (status : UInt16)
  | complete (response : Response)
  deriving DecidableEq, Repr

def Delivery.result (options : SendOptions) (path : String) : Delivery → Except Failure Response
  | failed fault => .error (.transport fault)
  | broken _ => .error (.protocol .unreadableBody)
  | complete response => options.accept path response

end MatrixSession.Http
