import MatrixSession.Http.Basic
import MatrixSession.Text.Blank

/-!
The head of a response, read byte by byte. A head ends with its first empty line. Heads of interim
responses are passed over, and the last head says how the body is framed.
-/
namespace MatrixSession.Http

inductive Reading (α : Type) where
  | unfinished
  | malformed
  | done (value : α) (rest : List UInt8)
  deriving DecidableEq, Repr

def latin (bytes : List UInt8) : List Char := bytes.map fun b => Char.ofNat b.toNat

def isSpace (c : Char) : Bool := c == ' ' || c == '\t'

/-- The version is 1.0 if `old`, and 1.1 otherwise. Names of fields are in lower case. -/
structure Head where
  old : Bool
  status : UInt16
  fields : List (String × List Char)
  deriving DecidableEq, Repr

def statusLine? (line : List Char) : Option (Bool × UInt16) := do
  let (version, rest) ← Text.splitFirst? ' ' line
  let code := rest.takeWhile (· ≠ ' ')
  if code.length = 3 ∧ isHeaderValue (String.ofList (rest.dropWhile (· ≠ ' '))) = true then
    let status ← Decimal.read? 1000 code
    if status < 100 then none
    else if version = "HTTP/1.1".toList then some (false, .ofNat status)
    else if version = "HTTP/1.0".toList then some (true, .ofNat status)
    else none
  else none

def field? (line : List Char) : Option (String × List Char) := do
  let (name, value) ← Text.splitFirst? ':' line
  if isHeaderName (String.ofList name) = true ∧ isHeaderValue (String.ofList value) = true then
    some (String.ofList (name.map Char.toLower), Text.trimmed isSpace value)
  else none

def Head.read? : List (List Char) → Option Head
  | [] => none
  | first :: lines => do
    let (old, status) ← statusLine? first
    let fields ← lines.mapM field?
    some ⟨old, status, fields⟩

inductive Framing where
  | empty
  | counted (size : Nat)
  | chunked
  | untilClose
  deriving DecidableEq, Repr

namespace Head

def Interim (h : Head) : Prop := h.status < 200 ∧ h.status ≠ 101

instance (h : Head) : Decidable h.Interim := inferInstanceAs (Decidable (_ ∧ _))

def Bodiless (h : Head) (method : String) : Prop :=
  h.status = 101 ∨ h.status = 204 ∨ h.status = 304 ∨ method = "HEAD" ∨
    method = "CONNECT" ∧ 200 ≤ h.status ∧ h.status < 300

instance (h : Head) (method : String) : Decidable (h.Bodiless method) :=
  inferInstanceAs (Decidable (_ ∨ _))

def values (h : Head) (name : String) : List (List Char) :=
  (h.fields.filter (·.1 = name)).map (·.2)

def size? (h : Head) : Option Nat := do
  let lengths := (h.values "content-length").flatMap (Text.splitAll (· == ','))
  match ← lengths.mapM fun l => Decimal.read? (UInt64.size - 2) (Text.trimmed isSpace l) with
  | [] => none
  | size :: others => if others.all (· = size) then some size else none

def isChunked (codings : List Char) : Bool :=
  codings.all (·.toNat < 0x80) &&
    (Text.splitAll (· == ',') codings).getLast?.any fun last =>
      (Text.trimmed isSpace last).map Char.toLower = "chunked".toList

def framing? (h : Head) (method : String) : Option Framing :=
  if h.Bodiless method then some .empty
  else match (h.values "transfer-encoding").getLast? with
    | some codings =>
      if h.old then none else some (if isChunked codings then .chunked else .untilClose)
    | none =>
      if h.values "content-length" = [] then some .untilClose else h.size?.map .counted

end Head

def chopped (line : List UInt8) : List UInt8 :=
  if line.getLast? = some 0x0D then line.dropLast else line

/-- Reads on after the lines of a head so far and the bytes of the next line so far. -/
def readHead (method : String) :
    List (List Char) → List UInt8 → List UInt8 → Reading (UInt16 × Framing)
  | _, _, [] => .unfinished
  | lines, line, b :: rest =>
    if b ≠ 0x0A then readHead method lines (line ++ [b]) rest
    else if chopped line ≠ [] then readHead method (lines ++ [latin (chopped line)]) [] rest
    else if lines = [] then readHead method [] [] rest
    else match Head.read? lines with
      | none => .malformed
      | some head =>
        if head.Interim then readHead method [] [] rest
        else match head.framing? method with
          | none => .malformed
          | some framing => .done (head.status, framing) rest

end MatrixSession.Http
