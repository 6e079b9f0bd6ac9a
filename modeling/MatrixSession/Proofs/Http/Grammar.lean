import Mathlib.Data.List.Forall2
import MatrixSession.Http.Body

/-!
How a response is written: heads of interim responses, the head that counts, and a body whose end is
found in one of four ways. This says nothing about how a response is read.
-/
namespace MatrixSession.Http

def crlf : List UInt8 := [0x0D, 0x0A]

/-- In a head, a line feed alone may end a line too. A carriage return before it is not of the line. -/
def Ends (line stop : List UInt8) : Prop :=
  stop = crlf ∨ stop = [0x0A] ∧ line.getLast? ≠ some 0x0D

inductive Lines : List (List UInt8) → List UInt8 → Prop
  | nil {stop : List UInt8} (ends : Ends [] stop) : Lines [] stop
  | cons {line stop bytes : List UInt8} {lines : List (List UInt8)} (nonempty : line ≠ [])
      (feedless : 0x0A ∉ line) (ends : Ends line stop) (others : Lines lines bytes) :
      Lines (line :: lines) (line ++ stop ++ bytes)

/-- A line such as `HTTP/1.1 200 OK`. -/
inductive StatusLine (old : Bool) (status : UInt16) : List Char → Prop
  | line {code reason : List Char} (digits : Decimal.IsNumeral code) (three : code.length = 3)
      (value : Decimal.value code = status.toNat)
      (proper : 100 ≤ status.toNat ∧ status.toNat < 1000)
      (apart : reason = [] ∨ reason.head? = some ' ')
      (legal : isHeaderValue (String.ofList reason) = true) :
      StatusLine old status
        ((if old then "HTTP/1.0" else "HTTP/1.1").toList ++ ' ' :: (code ++ reason))

def IsSolid (text : List Char) : Prop :=
  (∀ c, text.head? = some c → isSpace c = false) ∧ ∀ c, text.getLast? = some c → isSpace c = false

/-- A line such as `Content-Length: 2`. -/
inductive FieldLine : String × List Char → List Char → Prop
  | line {name before value after : List Char}
      (token : isHeaderName (String.ofList name) = true)
      (legal : isHeaderValue (String.ofList value) = true) (solid : IsSolid value)
      (blank : ∀ c ∈ before ++ after, isSpace c = true) :
      FieldLine (String.ofList (name.map Char.toLower), value)
        (name ++ ':' :: (before ++ value ++ after))

inductive Head.Written (head : Head) : List (List UInt8) → Prop
  | lines {first : List UInt8} {others : List (List UInt8)}
      (status : StatusLine head.old head.status (latin first))
      (fields : List.Forall₂ (fun field line => FieldLine field (latin line)) head.fields others) :
      Head.Written head (first :: others)

/-- All that comes before a body: heads of interim responses, and the one that is none. Empty lines
    before a head do not count. -/
inductive Heads (method : String) : UInt16 → Framing → List UInt8 → Prop
  | blank {status : UInt16} {framing : Framing} {stop bytes : List UInt8} (ends : Ends [] stop)
      (others : Heads method status framing bytes) : Heads method status framing (stop ++ bytes)
  | interim {status : UInt16} {framing : Framing} {head : Head} {lines : List (List UInt8)}
      {first bytes : List UInt8} (written : head.Written lines) (text : Lines lines first)
      (interim : head.Interim) (others : Heads method status framing bytes) :
      Heads method status framing (first ++ bytes)
  | final {framing : Framing} {head : Head} {lines : List (List UInt8)} {bytes : List UInt8}
      (written : head.Written lines) (text : Lines lines bytes) (final : ¬ head.Interim)
      (framed : head.framing? method = some framing) : Heads method head.status framing bytes

/-- The line before a chunk: its size, then blanks, then whatever follows a semicolon. -/
inductive SizeLine : Nat → List Char → Prop
  | line {digits blanks extension : List Char} (nonempty : digits ≠ [])
      (hex : ∀ c ∈ digits, isHexDigit c = true)
      (small : hexValue digits < UInt64.size) (blank : ∀ c ∈ blanks, isSpace c = true)
      (apart : extension = [] ∨ extension.head? = some ';') (feedless : '\n' ∉ extension) :
      SizeLine (hexValue digits) (digits ++ blanks ++ extension)

inductive Trailers : List UInt8 → Prop
  | nil : Trailers crlf
  | cons {line bytes : List UInt8} (nonempty : line ≠ []) (unreturned : 0x0D ∉ line)
      (others : Trailers bytes) : Trailers (line ++ crlf ++ bytes)

inductive Chunks : List UInt8 → List UInt8 → Prop
  | last {line bytes : List UInt8} (size : SizeLine 0 (latin line)) (unreturned : 0x0D ∉ line)
      (trailers : Trailers bytes) : Chunks (line ++ crlf ++ bytes) []
  | chunk {line data bytes body : List UInt8} (nonempty : data ≠ [])
      (size : SizeLine data.length (latin line)) (unreturned : 0x0D ∉ line)
      (others : Chunks bytes body) :
      Chunks (line ++ crlf ++ data ++ crlf ++ bytes) (data ++ body)

inductive Framing.Carries : Framing → List UInt8 → List UInt8 → Prop
  | empty : Carries .empty [] []
  | counted (body : List UInt8) : Carries (.counted body.length) body body
  | chunked {bytes body : List UInt8} (chunks : Chunks bytes body) : Carries .chunked bytes body
  | untilClose (body : List UInt8) : Carries .untilClose body body

end MatrixSession.Http
