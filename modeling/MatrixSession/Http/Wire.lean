import MatrixSession.Http.Basic

/-!
Requests as bytes. Every exchange has a connection of its own, which the server is asked to close.
-/
namespace MatrixSession.Http

def headerLine (name value : String) : String := name ++ ": " ++ value ++ "\x0d\n"

/-- The length of the body is declared unless there is none and none is expected. -/
def Request.lengthLine (r : Request) : String :=
  if r.body = "" ∧ (r.method = "GET" ∨ r.method = "HEAD") then ""
  else headerLine "content-length" (Decimal.numeral r.body.utf8ByteSize)

def Request.acceptLine (r : Request) : String :=
  if (r.headers.find? "accept").isSome then "" else headerLine "accept" "*/*"

def Request.wire (r : Request) (host : String) : List UInt8 :=
  Utf8.encode <|
    r.method ++ " " ++ r.target ++ " HTTP/1.1\x0d\n" ++ headerLine "host" host ++
    headerLine "connection" "close" ++ r.acceptLine ++ r.lengthLine ++
    String.join (r.headers.entries.map fun (name, value) => headerLine name value) ++
    "\x0d\n" ++ r.body

end MatrixSession.Http
