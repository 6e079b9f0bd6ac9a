import MatrixSession.Json.Binary64

/-!
Numbers of JSON texts. A whole number that fits 64 bits, signed or unsigned, stays exact; every
other one becomes a 64-bit binary number, or is refused if it is too large for that.
-/
namespace MatrixSession.Json

structure Numeral where
  negative : Bool
  whole : List Nat
  fraction : Option (List Nat)
  exponent : Option Int
  deriving DecidableEq, Repr

inductive Number where
  | integer (value : Int)
  | real (value : Binary64)
  deriving DecidableEq, Repr

namespace Numeral

def digitsValue (digits : List Nat) : Nat := digits.foldl (fun n d => 10 * n + d) 0

def gather (significand : Nat) : List Nat → Nat × List Nat
  | [] => (significand, [])
  | d :: rest =>
    if 10 * significand + d < UInt64.size then gather (10 * significand + d) rest
    else (significand, d :: rest)

/-- The binary value. Digits before the point that do not fit the significand count as a power
    of ten; those after it are dropped. -/
def real? (n : Numeral) : Option Binary64 :=
  let (significand, beyond) := gather 0 n.whole
  let fraction := n.fraction.getD []
  let (significand, dropped) := gather significand fraction
  let taken := fraction.length - dropped.length
  Binary64.ofDecimal? n.negative significand
    ((beyond.length : Int) - (taken : Int) + n.exponent.getD 0)

def number? (n : Numeral) : Option Number :=
  let value := digitsValue n.whole
  if n.fraction.isSome ∨ n.exponent.isSome then n.real?.map .real
  else if n.negative = false ∧ value < UInt64.size then some (.integer value)
  else if n.negative = true ∧ 0 < value ∧ value ≤ UInt64.size / 2 then some (.integer (-value))
  else n.real?.map .real

end Numeral

def Number.text : Number → List Char
  | .integer (.ofNat n) => Nat.toDigits 10 n
  | .integer (.negSucc n) => '-' :: Nat.toDigits 10 (n + 1)
  | .real x => x.text

end MatrixSession.Json
