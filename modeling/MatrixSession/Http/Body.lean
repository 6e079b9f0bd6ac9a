import MatrixSession.Http.Head
import MatrixSession.Text.Hex

/-!
The body of a response, read byte by byte behind its head.
-/
namespace MatrixSession.Http

def hexValue (digits : List Char) : Nat :=
  digits.foldl (fun n c => 16 * n + (Hex.value? c.toNat).getD 0) 0

def isHexDigit (c : Char) : Bool := (Hex.value? c.toNat).isSome

/-- The size in the line before a chunk. Whatever follows a semicolon is passed over. -/
def chunkSize? (line : List Char) : Option Nat :=
  let digits := line.takeWhile isHexDigit
  let rest := (line.dropWhile isHexDigit).dropWhile isSpace
  if digits ≠ [] ∧ hexValue digits < UInt64.size ∧ (rest = [] ∨ rest.head? = some ';' ∧ '\n' ∉ rest)
  then some (hexValue digits)
  else none

inductive ChunkPoint where
  | size (line : List UInt8)
  | sizeFeed (line : List UInt8)
  /-- One byte and `more` are still to come. -/
  | data (more : Nat)
  | dataReturn
  | dataFeed
  | trailer (blank : Bool)
  | trailerFeed (blank : Bool)
  deriving DecidableEq, Repr

/-- Reads on with the bytes of the body so far, of which the last comes first. -/
def readChunks : ChunkPoint → List UInt8 → List UInt8 → Reading (List UInt8)
  | _, _, [] => .unfinished
  | .size line, body, b :: rest =>
    if b = 0x0D then readChunks (.sizeFeed line) body rest
    else readChunks (.size (line ++ [b])) body rest
  | .sizeFeed line, body, b :: rest =>
    if b ≠ 0x0A then .malformed
    else match chunkSize? (latin line) with
      | none => .malformed
      | some 0 => readChunks (.trailer true) body rest
      | some (more + 1) => readChunks (.data more) body rest
  | .data 0, body, b :: rest => readChunks .dataReturn (b :: body) rest
  | .data (more + 1), body, b :: rest => readChunks (.data more) (b :: body) rest
  | .dataReturn, body, b :: rest =>
    if b = 0x0D then readChunks .dataFeed body rest else .malformed
  | .dataFeed, body, b :: rest =>
    if b = 0x0A then readChunks (.size []) body rest else .malformed
  | .trailer blank, body, b :: rest =>
    if b = 0x0D then readChunks (.trailerFeed blank) body rest
    else readChunks (.trailer false) body rest
  | .trailerFeed blank, body, b :: rest =>
    if b ≠ 0x0A then .malformed
    else if blank then .done body.reverse rest
    else readChunks (.trailer true) body rest

def Framing.read : Framing → List UInt8 → Reading (List UInt8)
  | empty, bytes => .done [] bytes
  | counted size, bytes =>
    if bytes.length < size then .unfinished else .done (bytes.take size) (bytes.drop size)
  | chunked, bytes => readChunks (.size []) [] bytes
  | untilClose, _ => .unfinished

end MatrixSession.Http
