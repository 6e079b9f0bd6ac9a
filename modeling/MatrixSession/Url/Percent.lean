import MatrixSession.Text.Hex
import MatrixSession.Text.Utf8

/-!
Percent-encoding. Each part of a URL has a set of ASCII characters that are encoded in it; C0
controls, DEL and everything beyond ASCII are encoded in all of them.
-/
namespace MatrixSession.Percent

def encodeByte (b : UInt8) : List Char :=
  ['%', Hex.upperDigit (b.toNat / 16), Hex.upperDigit (b.toNat % 16)]

/-- The encoded characters of a part of a URL, beside the controls and what is beyond ASCII. -/
structure EncodeSet where
  members : List Char
  deriving DecidableEq, Repr

namespace EncodeSet

def contains (s : EncodeSet) (c : Char) : Bool :=
  decide (c < ' ') || decide ('~' < c) || s.members.contains c

def controls : EncodeSet := ⟨[]⟩

def fragment : EncodeSet := ⟨[' ', '\x22', '<', '>', '\x60']⟩

def query : EncodeSet := ⟨[' ', '\x22', '#', '<', '>']⟩

def specialQuery : EncodeSet := ⟨'\x27' :: query.members⟩

def path : EncodeSet := ⟨fragment.members ++ ['#', '?', '\x7b', '\x7d']⟩

def userInfo : EncodeSet := ⟨path.members ++ ['/', ':', ';', '=', '@', '[', '\\', ']', '^', '|']⟩

/-- A segment that is appended may hold no separator and no encoded character. -/
def segment : EncodeSet := ⟨path.members ++ ['/', '%']⟩

def specialSegment : EncodeSet := ⟨'\\' :: segment.members⟩

end EncodeSet

def encodeChar (s : EncodeSet) (c : Char) : List Char :=
  if s.contains c then (Utf8.encodeChar c).flatMap encodeByte else [c]

def encode (s : EncodeSet) (text : List Char) : List Char := text.flatMap (encodeChar s)

def decode : List UInt8 → List UInt8
  | 0x25 :: high :: low :: rest =>
    match Hex.value? high.toNat, Hex.value? low.toNat with
    | some h, some l => UInt8.ofNat (16 * h + l) :: decode rest
    | _, _ => 0x25 :: decode (high :: low :: rest)
  | b :: rest => b :: decode rest
  | [] => []

def isFormPlain (c : Char) : Bool :=
  c.isAlphanum || c == '*' || c == '-' || c == '.' || c == '_'

/-- Form encoding: a space becomes a plus sign, letters, digits and `*-._` stay. -/
def encodeForm (text : List Char) : List Char :=
  text.flatMap fun c =>
    if c = ' ' then ['+']
    else if isFormPlain c then [c]
    else (Utf8.encodeChar c).flatMap encodeByte

def decodeForm (text : List Char) : String :=
  Utf8.lossy (decode (Utf8.encodeChars (text.map fun c => if c = '+' then ' ' else c)))

end MatrixSession.Percent
