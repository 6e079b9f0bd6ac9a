import MatrixSession.Json.Reader

/-!
Responses of a homeserver.
-/
namespace MatrixSession

structure Response where
  status : UInt16
  body : List UInt8
  deriving DecidableEq, Repr

namespace Response

def isSuccess (r : Response) : Bool := 200 ≤ r.status && r.status < 300

def text (r : Response) : String := Utf8.lossy r.body

end Response

end MatrixSession
