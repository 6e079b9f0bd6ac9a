/-!
UTF-8. A decoder reads one byte at a time and marks each maximal ill-formed sequence; strict and
lossy decoding are two ways of reading the marks.
-/
namespace MatrixSession.Utf8

def encodeChar (c : Char) : List UInt8 :=
  let n := c.toNat
  if n < 0x80 then [UInt8.ofNat n]
  else if n < 0x800 then [UInt8.ofNat (0xC0 + n / 0x40), UInt8.ofNat (0x80 + n % 0x40)]
  else if n < 0x10000 then
    [UInt8.ofNat (0xE0 + n / 0x1000), UInt8.ofNat (0x80 + n / 0x40 % 0x40),
      UInt8.ofNat (0x80 + n % 0x40)]
  else
    [UInt8.ofNat (0xF0 + n / 0x40000), UInt8.ofNat (0x80 + n / 0x1000 % 0x40),
      UInt8.ofNat (0x80 + n / 0x40 % 0x40), UInt8.ofNat (0x80 + n % 0x40)]

def encodeChars (text : List Char) : List UInt8 := text.flatMap encodeChar

def encode (text : String) : List UInt8 := encodeChars text.toList

/-- What the decoder waits for: a new character, or `more + 1` continuation bytes, the first of
    them between `low` and `high`, after the bits `acc`. -/
inductive State where
  | start
  | inside (more low high acc : Nat)

def lead? (b : Nat) : Option State :=
  if b < 0xC2 then none
  else if b < 0xE0 then some (.inside 0 0x80 0xBF (b - 0xC0))
  else if b = 0xE0 then some (.inside 1 0xA0 0xBF 0)
  else if b = 0xED then some (.inside 1 0x80 0x9F 0xD)
  else if b < 0xF0 then some (.inside 1 0x80 0xBF (b - 0xE0))
  else if b = 0xF0 then some (.inside 2 0x90 0xBF 0)
  else if b < 0xF4 then some (.inside 2 0x80 0xBF (b - 0xF0))
  else if b = 0xF4 then some (.inside 2 0x80 0x8F 4)
  else none

/-- Reads a byte where a character starts. The list holds what it completes: a character, or
    `none` for an ill-formed sequence. -/
def enter (b : Nat) : List (Option Char) × State :=
  if b < 0x80 then ([some (Char.ofNat b)], .start)
  else match lead? b with
    | some state => ([], state)
    | none => ([none], .start)

/-- Reads a byte. One that cannot continue a character ends it as ill-formed and is then read
    anew. -/
def step (b : Nat) : State → List (Option Char) × State
  | .start => enter b
  | .inside more low high acc =>
    if low ≤ b ∧ b ≤ high then
      let acc := acc * 0x40 + (b - 0x80)
      match more with
      | 0 => ([some (Char.ofNat acc)], .start)
      | more + 1 => ([], .inside more 0x80 0xBF acc)
    else
      let (done, state) := enter b
      (none :: done, state)

def units : State → List UInt8 → List (Option Char)
  | .start, [] => []
  | .inside .., [] => [none]
  | state, b :: rest =>
    let (done, state) := step b.toNat state
    done ++ units state rest

def decodeChars? (bytes : List UInt8) : Option (List Char) := (units .start bytes).mapM id

def decode? (bytes : List UInt8) : Option String := (decodeChars? bytes).map String.ofList

/-- Decodes any bytes; each maximal ill-formed sequence becomes U+FFFD. -/
def lossy (bytes : List UInt8) : String :=
  String.ofList ((units .start bytes).map (·.getD '\uFFFD'))

end MatrixSession.Utf8
