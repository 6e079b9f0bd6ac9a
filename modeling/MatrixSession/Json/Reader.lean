import MatrixSession.Json.Value
import MatrixSession.Text.Hex
import MatrixSession.Text.Utf8

/-!
Reading JSON from bytes. A reader takes the bytes from where its value starts and returns what is
left after it; `none` stands for a malformed text. Values are nested at most 127 levels. A value
that is only passed over has no such limit, its strings may hold any bytes, and its numbers any
size.
-/
namespace MatrixSession.Json

abbrev Reader (α : Type) := List UInt8 → Option (α × List UInt8)

def isBlankByte (b : UInt8) : Bool := b == 0x20 || b == 0x0A || b == 0x0D || b == 0x09

def skipBlanks (bytes : List UInt8) : List UInt8 := bytes.dropWhile isBlankByte

def escape? (b : UInt8) : Option UInt8 :=
  if b = 0x22 ∨ b = 0x5C ∨ b = 0x2F then some b
  else if b = 0x62 then some 0x08
  else if b = 0x66 then some 0x0C
  else if b = 0x6E then some 0x0A
  else if b = 0x72 then some 0x0D
  else if b = 0x74 then some 0x09
  else none

def hexUnit? (a b c d : UInt8) : Option Nat := do
  let a ← Hex.value? a.toNat
  let b ← Hex.value? b.toNat
  let c ← Hex.value? c.toNat
  let d ← Hex.value? d.toNat
  some (((16 * a + b) * 16 + c) * 16 + d)

def surrogatePair? (high low : Nat) : Option Char :=
  if 0xDC00 ≤ low ∧ low ≤ 0xDFFF then
    some (Char.ofNat (0x10000 + (high - 0xD800) * 0x400 + (low - 0xDC00)))
  else none

def stringBytes : Reader (List UInt8)
  | [] => none
  | 0x22 :: rest => some ([], rest)
  | 0x5C :: 0x75 :: a :: b :: c :: d :: rest => do
    let unit ← hexUnit? a b c d
    if 0xDC00 ≤ unit ∧ unit ≤ 0xDFFF then none
    else if 0xD800 ≤ unit ∧ unit ≤ 0xDBFF then
      match rest with
      | 0x5C :: 0x75 :: e :: f :: g :: h :: rest => do
        let low ← hexUnit? e f g h
        let c ← surrogatePair? unit low
        let (more, rest) ← stringBytes rest
        some (Utf8.encodeChar c ++ more, rest)
      | _ => none
    else do
      let (more, rest) ← stringBytes rest
      some (Utf8.encodeChar (Char.ofNat unit) ++ more, rest)
  | 0x5C :: e :: rest => do
    let b ← escape? e
    let (more, rest) ← stringBytes rest
    some (b :: more, rest)
  | b :: rest => do
    guard (0x20 ≤ b)
    let (more, rest) ← stringBytes rest
    some (b :: more, rest)

def stringTail : Reader String := fun bytes => do
  let (content, rest) ← stringBytes bytes
  let text ← Utf8.decode? content
  some (text, rest)

def string : Reader String
  | 0x22 :: rest => stringTail rest
  | _ => none

def skipString : List UInt8 → Option (List UInt8)
  | [] => none
  | 0x22 :: rest => some rest
  | 0x5C :: 0x75 :: a :: b :: c :: d :: rest =>
    if (hexUnit? a b c d).isSome then skipString rest else none
  | 0x5C :: e :: rest => if (escape? e).isSome then skipString rest else none
  | b :: rest => if 0x20 ≤ b then skipString rest else none

def isDigitByte (b : UInt8) : Bool := 0x30 ≤ b && b ≤ 0x39

def digits (bytes : List UInt8) : List Nat × List UInt8 :=
  ((bytes.takeWhile isDigitByte).map fun b => b.toNat - 0x30, bytes.dropWhile isDigitByte)

def someDigits : Reader (List Nat) := fun bytes =>
  match digits bytes with
  | ([], _) => none
  | found => some found

/-- The digits before the point: a zero alone, or digits that start with another one. -/
def wholeDigits : Reader (List Nat)
  | 0x30 :: b :: rest => if isDigitByte b then none else some ([0], b :: rest)
  | bytes => someDigits bytes

def fractionDigits : Reader (Option (List Nat))
  | 0x2E :: rest => (someDigits rest).map fun (ds, rest) => (some ds, rest)
  | bytes => some (none, bytes)

def exponentDigits : Reader Int
  | 0x2D :: rest => (someDigits rest).map fun (ds, rest) => (-(Numeral.digitsValue ds : Int), rest)
  | 0x2B :: rest => (someDigits rest).map fun (ds, rest) => ((Numeral.digitsValue ds : Int), rest)
  | bytes => (someDigits bytes).map fun (ds, rest) => ((Numeral.digitsValue ds : Int), rest)

def exponentPart : Reader (Option Int)
  | 0x65 :: rest => (exponentDigits rest).map fun (n, rest) => (some n, rest)
  | 0x45 :: rest => (exponentDigits rest).map fun (n, rest) => (some n, rest)
  | bytes => some (none, bytes)

def numeral : Reader Numeral := fun bytes => do
  let (negative, bytes) := match bytes with
    | 0x2D :: rest => (true, rest)
    | bytes => (false, bytes)
  let (whole, bytes) ← wholeDigits bytes
  let (fraction, bytes) ← fractionDigits bytes
  let (exponent, bytes) ← exponentPart bytes
  some (⟨negative, whole, fraction, exponent⟩, bytes)

def number : Reader Number := fun bytes => do
  let (written, rest) ← numeral bytes
  let n ← written.number?
  some (n, rest)

def literal {α : Type} (value : α) : List UInt8 → Reader α
  | [], bytes => some (value, bytes)
  | l :: more, b :: rest => if b = l then literal value more rest else none
  | _, [] => none

def someItems {α : Type} (closing : UInt8) (item : Reader α) : Nat → Reader (List α)
  | 0, _ => none
  | fuel + 1, bytes => do
    let (first, rest) ← item (skipBlanks bytes)
    match skipBlanks rest with
    | [] => none
    | b :: rest =>
      if b = 0x2C then do
        let (more, rest) ← someItems closing item fuel rest
        some (first :: more, rest)
      else if b = closing then some ([first], rest)
      else none

/-- Items with commas between them, up to and with the closing byte. Each item takes at least one
    byte, so there are no more of them than bytes. -/
def items {α : Type} (closing : UInt8) (item : Reader α) : Reader (List α) := fun bytes =>
  match skipBlanks bytes with
  | [] => none
  | b :: rest =>
    if b = closing then some ([], rest) else someItems closing item (b :: rest).length (b :: rest)

def member {α : Type} (value : String → Reader α) : Reader (String × α) := fun bytes => do
  let (key, rest) ← string bytes
  match skipBlanks rest with
  | 0x3A :: rest =>
    let (v, rest) ← value key (skipBlanks rest)
    some ((key, v), rest)
  | _ => none

def array {α : Type} (item : Reader α) : Reader (List α)
  | 0x5B :: rest => items 0x5D item rest
  | _ => none

def object {α : Type} (value : String → Reader α) : Reader (List (String × α))
  | 0x7B :: rest => items 0x7D (member value) rest
  | _ => none

def null : Reader Unit := literal () [0x6E, 0x75, 0x6C, 0x6C]

def bool : Reader Bool
  | 0x74 :: rest => literal true [0x72, 0x75, 0x65] rest
  | 0x66 :: rest => literal false [0x61, 0x6C, 0x73, 0x65] rest
  | _ => none

/-- Any value that is nested at most `depth` levels. -/
def value : Nat → Reader Value
  | _, [] => none
  | depth, b :: rest =>
    if b = 0x22 then (stringTail rest).map fun (text, rest) => (.string text, rest)
    else if b = 0x5B then
      match depth with
      | 0 => none
      | depth + 1 => (items 0x5D (value depth) rest).map fun (vs, rest) => (.array vs, rest)
    else if b = 0x7B then
      match depth with
      | 0 => none
      | depth + 1 =>
        (items 0x7D (member fun _ => value depth) rest).map fun (ms, rest) =>
          (.ofMembers ms, rest)
    else if b = 0x6E then (null (b :: rest)).map fun (_, rest) => (.null, rest)
    else if b = 0x74 ∨ b = 0x66 then (bool (b :: rest)).map fun (x, rest) => (.bool x, rest)
    else (number (b :: rest)).map fun (n, rest) => (.number n, rest)

def skipWithin : Nat → Reader Unit
  | _, [] => none
  | depth, b :: rest =>
    if b = 0x22 then (skipString rest).map fun rest => ((), rest)
    else if b = 0x5B then
      match depth with
      | 0 => none
      | depth + 1 => (items 0x5D (skipWithin depth) rest).map fun (_, rest) => ((), rest)
    else if b = 0x7B then
      match depth with
      | 0 => none
      | depth + 1 =>
        (items 0x7D (skipMember (skipWithin depth)) rest).map fun (_, rest) => ((), rest)
    else if b = 0x6E then null (b :: rest)
    else if b = 0x74 ∨ b = 0x66 then (bool (b :: rest)).map fun (_, rest) => ((), rest)
    else (numeral (b :: rest)).map fun (_, rest) => ((), rest)
where
  /-- Passes over a key, a colon and a value. -/
  skipMember (value : Reader Unit) : Reader Unit
    | 0x22 :: rest => do
      let rest ← skipString rest
      match skipBlanks rest with
      | 0x3A :: rest => value (skipBlanks rest)
      | _ => none
    | _ => none

/-- Passes over any value. It cannot be nested deeper than it is long. -/
def skip : Reader Unit := fun bytes => skipWithin bytes.length bytes

def whole? {α : Type} (reader : Reader α) (bytes : List UInt8) : Option α := do
  let (result, rest) ← reader (skipBlanks bytes)
  guard (skipBlanks rest).isEmpty
  some result

def Value.ofBytes? (bytes : List UInt8) : Option Value := whole? (value 127) bytes

end MatrixSession.Json
