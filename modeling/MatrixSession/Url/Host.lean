import MatrixSession.Text.Decimal
import MatrixSession.Text.Split
import MatrixSession.Url.Percent

/-!
Hosts of URLs: domains, IPv4 addresses in their many spellings, and IPv6 addresses. Domains are
ASCII here; one that holds any other character is refused.
-/
namespace MatrixSession

inductive Url.Fault where
  | emptyHost
  | invalidDomain
  | invalidDomainCharacter
  | invalidPort
  | invalidIpv4
  | invalidIpv6
  | relativeWithoutBase
  | cannotBeBase
  deriving DecidableEq, Repr

def Url.Fault.text : Url.Fault → String
  | emptyHost => "empty host"
  | invalidDomain => "invalid international domain name"
  | invalidDomainCharacter => "invalid domain character"
  | invalidPort => "invalid port number"
  | invalidIpv4 => "invalid IPv4 address"
  | invalidIpv6 => "invalid IPv6 address"
  | relativeWithoutBase => "relative URL without a base"
  | cannotBeBase => "relative URL with a cannot-be-a-base base"

inductive Host where
  | domain (name : String)
  | ipv4 (address : UInt32)
  | ipv6 (pieces : List UInt16)
  deriving DecidableEq, Repr

namespace Ipv4

/-- One part of an address: hexadecimal behind `0x`, octal behind `0`, else decimal. -/
def number? (text : List Char) : Option Nat :=
  let (base, digits) := match text with
    | '0' :: 'x' :: rest => (16, rest)
    | '0' :: 'X' :: rest => (16, rest)
    | '0' :: c :: rest => (8, c :: rest)
    | _ => (10, text)
  if text = [] then none
  else
    (digits.mapM fun c => (Hex.value? c.toNat).filter (· < base)).map fun values =>
      values.foldl (fun n d => base * n + d) 0

def parts (text : List Char) : List (List Char) :=
  let all := Text.splitAll (· = '.') text
  if 1 < all.length ∧ all.getLast? = some [] then all.dropLast else all

def endsInNumber (text : List Char) : Bool :=
  match (parts text).getLast? with
  | none => false
  | some last => decide (Decimal.IsNumeral last) || (number? last).isSome

/-- The last of the numbers fills all bytes that the ones before it leave. -/
def ofNumbers? : List Nat → Nat → Option Nat
  | [], _ => none
  | [last], places => if last < .pow 256 places then some last else none
  | first :: rest, places =>
    if first < 256 ∧ 1 < places then
      (ofNumbers? rest (places - 1)).map (first * .pow 256 (places - 1) + ·)
    else none

def parse? (text : List Char) : Option UInt32 := do
  let numbers ← (parts text).mapM number?
  let address ← ofNumbers? numbers 4
  some (UInt32.ofNat address)

def parseStrict? (text : List Char) : Option (Nat × Nat × Nat × Nat) := do
  let numbers ← (Text.splitAll (· = '.') text).mapM fun part => do
    guard (part.length = 1 ∨ part.head? ≠ some '0')
    Decimal.read? 256 part
  match numbers with
  | [a, b, c, d] => some (a, b, c, d)
  | _ => none

def text (address : UInt32) : String :=
  let n := address.toNat
  ".".intercalate ([n / 0x1000000, n / 0x10000 % 256, n / 0x100 % 256, n % 256].map
    Decimal.numeral)

end Ipv4

namespace Ipv6

def piece? (text : List Char) : Option UInt16 :=
  if text = [] ∨ 4 < text.length then none
  else (text.mapM fun c => Hex.value? c.toNat).map fun values =>
    UInt16.ofNat (values.foldl (fun n d => 16 * n + d) 0)

def pieces? (withIpv4 : Bool) : List (List Char) → Option (List UInt16)
  | [] => some []
  | [last] =>
    match piece? last with
    | some piece => some [piece]
    | none => do
      guard withIpv4
      let (a, b, c, d) ← Ipv4.parseStrict? last
      some [UInt16.ofNat (256 * a + b), UInt16.ofNat (256 * c + d)]
  | first :: rest => do
    let piece ← piece? first
    let more ← pieces? withIpv4 rest
    some (piece :: more)

def splitDoubleColon? : List Char → Option (List Char × List Char)
  | ':' :: ':' :: rest => some ([], rest)
  | c :: rest => (splitDoubleColon? rest).map fun (left, right) => (c :: left, right)
  | [] => none

def colonParts (text : List Char) : List (List Char) :=
  if text = [] then [] else Text.splitAll (· = ':') text

/-- The eight pieces of an address. A double colon stands for at least one zero piece. -/
def parse? (text : List Char) : Option (List UInt16) :=
  match splitDoubleColon? text with
  | none => do
    let pieces ← pieces? true (Text.splitAll (· = ':') text)
    guard (pieces.length = 8)
    some pieces
  | some (left, right) => do
    let left ← pieces? false (colonParts left)
    let right ← pieces? true (colonParts right)
    guard (left.length + right.length < 8)
    some (left ++ List.replicate (8 - left.length - right.length) 0 ++ right)

def zerosFrom (pieces : List UInt16) (index : Nat) : Nat :=
  ((pieces.drop index).takeWhile (· = 0)).length

def longestZeros? (pieces : List UInt16) : Option Nat :=
  (List.range pieces.length).foldl (fun best index =>
    let length := zerosFrom pieces index
    let record := (best.map (zerosFrom pieces)).getD 1
    if record < length then some index else best) none

def joined (pieces : List UInt16) : String :=
  ":".intercalate (pieces.map fun piece => Hex.ofNat piece.toNat)

def text (pieces : List UInt16) : String :=
  match longestZeros? pieces with
  | none => joined pieces
  | some start =>
    joined (pieces.take start) ++ "::" ++ joined (pieces.drop (start + zerosFrom pieces start))

end Ipv6

namespace Host

def text : Host → String
  | domain name => name
  | ipv4 address => Ipv4.text address
  | ipv6 pieces => "[" ++ Ipv6.text pieces ++ "]"

def isForbidden (c : Char) : Bool :=
  decide (c ≤ ' ') || decide ('~' < c) ||
    ['#', '%', '/', ':', '<', '>', '?', '@', '[', '\\', ']', '^', '|'].contains c

def isForbiddenPlain (c : Char) : Bool :=
  ['\x00', '\t', '\n', '\r', ' ', '#', '/', ':', '<', '>', '?', '@', '[', '\\', ']', '^',
    '|'].contains c

def bracketed (text : List Char) : Except Url.Fault Host :=
  match if text.getLast? = some ']' then Ipv6.parse? text.tail.dropLast else none with
  | some pieces => .ok (ipv6 pieces)
  | none => .error .invalidIpv6

/-- The host of a special URL: percent-decoded, in lower case, and an address if it looks like
    one. -/
def parse (text : List Char) : Except Url.Fault Host :=
  if text.head? = some '[' then bracketed text
  else
    let chars := (Percent.decode (Utf8.encodeChars text)).map fun b => Char.ofNat b.toNat
    if chars.any isForbidden then .error .invalidDomain
    else
      let name := chars.map Char.toLower
      if name = [] then .error .emptyHost
      else if Ipv4.endsInNumber name then
        match Ipv4.parse? name with
        | some address => .ok (ipv4 address)
        | none => .error .invalidIpv4
      else .ok (domain (String.ofList name))

/-- The host of any other URL, kept as it is but for controls and characters beyond ASCII;
    `none` if it is empty. -/
def parsePlain (text : List Char) : Except Url.Fault (Option Host) :=
  if text.head? = some '[' then (bracketed text).map some
  else if text.any isForbiddenPlain then .error .invalidDomainCharacter
  else if text = [] then .ok none
  else .ok (some (domain (String.ofList (Percent.encode .controls text))))

end Host

end MatrixSession
