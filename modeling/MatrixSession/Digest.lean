import MatrixSession.Text.Hex
import MatrixSession.Text.Utf8

/-!
The SHA-1 digest: blocks of sixteen big-endian words, eighty rounds to a block.
-/
namespace MatrixSession.Sha1

structure State where
  a : UInt32
  b : UInt32
  c : UInt32
  d : UInt32
  e : UInt32
  deriving DecidableEq, Repr

def initial : State := ⟨0x67452301, 0xEFCDAB89, 0x98BADCFE, 0x10325476, 0xC3D2E1F0⟩

def rotate (x : UInt32) (n : UInt32) : UInt32 := (x <<< n) ||| (x >>> (32 - n))

def bigEndian (count n : Nat) : List UInt8 :=
  (List.range count).map fun i => UInt8.ofNat (n / .pow 256 (count - 1 - i))

/-- The message, a one bit, zeros up to eight bytes before the end of a block, and the length in
    bits. -/
def padded (message : List UInt8) : List UInt8 :=
  let zeros := (119 - message.length % 64) % 64
  message ++ 0x80 :: List.replicate zeros 0 ++ bigEndian 8 (8 * message.length)

def word (bytes : List UInt8) : UInt32 := bytes.foldl (fun w b => w * 256 + b.toUInt32) 0

def pieces {α : Type} (size count : Nat) (list : List α) : List (List α) :=
  (List.range count).map fun i => (list.drop (i * size)).take size

/-- Adds one word to a schedule, whose words stand last first. -/
def extendSchedule (schedule : List UInt32) : List UInt32 :=
  let back (n : Nat) : UInt32 := schedule.getD (n - 1) 0
  rotate (back 3 ^^^ back 8 ^^^ back 14 ^^^ back 16) 1 :: schedule

def schedule (block : List UInt8) : List UInt32 :=
  let start := ((pieces 4 16 block).map word).reverse
  ((List.range 64).foldl (fun words _ => extendSchedule words) start).reverse

def roundParts (index : Nat) (s : State) : UInt32 × UInt32 :=
  if index < 20 then ((s.b &&& s.c) ||| (~~~s.b &&& s.d), 0x5A827999)
  else if index < 40 then (s.b ^^^ s.c ^^^ s.d, 0x6ED9EBA1)
  else if index < 60 then ((s.b &&& s.c) ||| (s.b &&& s.d) ||| (s.c &&& s.d), 0x8F1BBCDC)
  else (s.b ^^^ s.c ^^^ s.d, 0xCA62C1D6)

def round (s : State) (w : UInt32 × Nat) : State :=
  let (f, k) := roundParts w.2 s
  ⟨rotate s.a 5 + f + s.e + k + w.1, s.a, rotate s.b 30, s.c, s.d⟩

def compress (s : State) (block : List UInt8) : State :=
  let t := (schedule block).zipIdx.foldl round s
  ⟨s.a + t.a, s.b + t.b, s.c + t.c, s.d + t.d, s.e + t.e⟩

def digest (message : List UInt8) : List UInt8 :=
  let bytes := padded message
  let s := (pieces 64 (bytes.length / 64) bytes).foldl compress initial
  [s.a, s.b, s.c, s.d, s.e].flatMap fun w => bigEndian 4 w.toNat

def hexDigest (text : String) : String := Hex.ofBytes (digest (Utf8.encode text))

end MatrixSession.Sha1
