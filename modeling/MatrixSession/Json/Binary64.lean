/-!
Finite numbers of the 64-bit binary format, with exact arithmetic on naturals: rounding a quotient
to the nearest such number, scaling a significand by a power of ten, and writing a number with the
fewest digits that read back.
-/
namespace MatrixSession.Json

structure Binary64 where
  negative : Bool
  mantissa : Nat
  exponent : Int
  deriving DecidableEq, Repr

namespace Binary64

def minExponent : Int := -1074

def maxExponent : Int := 971

/-- The quotient to the nearest integer; of two nearest ones the even one. -/
def roundHalfEven (num den : Nat) : Nat :=
  let down := num / den
  let twice := 2 * (num % den)
  if twice > den ∨ twice = den ∧ down % 2 = 1 then down + 1 else down

def shifted (num den : Nat) (exponent : Int) : Nat × Nat :=
  if exponent ≥ 0 then (num, den * .pow 2 exponent.toNat)
  else (num * .pow 2 (-exponent).toNat, den)

def nearest? (num den : Nat) : Option (Nat × Int) :=
  if num = 0 then some (0, minExponent)
  else
    let guess : Int := num.log2 - den.log2 - 52
    let (n, d) := shifted num den guess
    let exponent := max minExponent (if n < d * .pow 2 52 then guess - 1 else guess)
    let (n, d) := shifted num den exponent
    let mantissa := roundHalfEven n d
    let (mantissa, exponent) :=
      if mantissa = .pow 2 53 then (.pow 2 52, exponent + 1) else (mantissa, exponent)
    if exponent > maxExponent then none else some (mantissa, exponent)

def quotient (mantissa : Nat) (exponent : Int) : Nat × Nat :=
  if exponent ≥ 0 then (mantissa * .pow 2 exponent.toNat, 1)
  else (mantissa, .pow 2 (-exponent).toNat)

def divideByTen? (x : Nat × Int) (power : Nat) : Option (Nat × Int) := do
  let (ten, exponent) ← nearest? (.pow 10 power) 1
  let (n, d) := quotient x.1 x.2
  let (tn, td) := quotient ten exponent
  nearest? (n * td) (d * tn)

def multiplyByTen? (x : Nat × Int) (power : Nat) : Option (Nat × Int) := do
  let (ten, exponent) ← nearest? (.pow 10 power) 1
  let (n, d) := quotient x.1 x.2
  let (tn, td) := quotient ten exponent
  nearest? (n * tn) (d * td)

def divideInStrides? (x : Nat × Int) (power : Nat) : Option (Nat × Int) :=
  if power ≤ 308 then divideByTen? x power
  else if x.1 = 0 then some x
  else do
    let smaller ← divideByTen? x 308
    divideInStrides? smaller (power - 308)
termination_by power

/-- A 64-bit significand times a power of ten, each step rounded; `none` beyond the format. -/
def ofDecimal? (negative : Bool) (significand : Nat) (power : Int) : Option Binary64 := do
  let start ← nearest? significand 1
  let (mantissa, exponent) ←
    if power < 0 then divideInStrides? start (-power).toNat
    else if power ≤ 308 then multiplyByTen? start power.toNat
    else if significand = 0 then some start
    else none
  some ⟨negative, mantissa, exponent⟩

/-- The decimal exponent of the first digit, plus one: `10 ^ (k - 1) ≤ num / den < 10 ^ k`. -/
def decimalPlaces (num den : Nat) : Int :=
  if num ≥ den then (Nat.toDigits 10 (num / den)).length
  else
    let lifted := num * .pow 10 (den.log2 + 1)
    ((Nat.toDigits 10 (lifted / den)).length : Int) - (den.log2 + 1 : Nat)

def scaledDown (num den : Nat) (power : Int) : Nat × Nat :=
  if power ≥ 0 then (num, den * .pow 10 power.toNat)
  else (num * .pow 10 (-power).toNat, den)

/-- The reals that round to `mantissa * 2 ^ exponent`, as bounds in quarters of `2 ^ exponent`.
    Below a power of two the gap is half as wide. -/
def bounds (mantissa : Nat) (exponent : Int) : Nat × Nat :=
  let below := if mantissa = .pow 2 52 ∧ exponent > minExponent then 1 else 2
  (4 * mantissa - below, 4 * mantissa + 2)

/-- A point `digits * 10 ^ power` of the decimal grid that rounds to the number, nearest to it
    among those of this grid; `none` if the grid has no such point. -/
def onGrid? (mantissa : Nat) (exponent power : Int) : Option Nat :=
  let (num, den) := quotient mantissa exponent
  let (n, d) := scaledDown num den power
  let (low, high) := bounds mantissa exponent
  let inside (digits : Nat) : Bool :=
    let point := 4 * mantissa * d * digits
    let (least, most) := (low * n, high * n)
    if mantissa % 2 = 0 then least ≤ point && point ≤ most else least < point && point < most
  let down := n / d
  let near := roundHalfEven n d
  let far := if near = down then down + 1 else down
  if near ≠ 0 && inside near then some near
  else if far ≠ 0 && inside far then some far
  else none

def shortest (mantissa : Nat) (exponent : Int) : Nat × Int :=
  let (num, den) := quotient mantissa exponent
  let places := decimalPlaces num den
  let found := (List.range 17).findSome? fun count =>
    let power := places - (count + 1 : Nat)
    (onGrid? mantissa exponent power).map fun digits => (digits, power)
  found.getD (mantissa, 0)

def stripZeros (digits : List Char) (power : Int) : List Char × Int :=
  let kept := (digits.reverse.dropWhile (· = '0')).reverse
  (kept, power + (digits.length - kept.length : Nat))

/-- The decimal text: positional with a point while it starts within sixteen digits before and
    five places after the point, else with an exponent. -/
def layout (digits : List Char) (power : Int) : List Char :=
  let point := digits.length + power
  if 0 ≤ power ∧ point ≤ 16 then digits ++ List.replicate power.toNat '0' ++ ['.', '0']
  else if 0 < point ∧ point ≤ 16 then
    digits.take point.toNat ++ '.' :: digits.drop point.toNat
  else if -5 < point ∧ point ≤ 0 then
    '0' :: '.' :: List.replicate (-point).toNat '0' ++ digits
  else
    let size := Nat.toDigits 10 (point - 1).natAbs
    let tail := (if point < 1 then '-' else '+') :: size
    match digits with
    | [] => []
    | [d] => d :: 'e' :: tail
    | d :: more => d :: '.' :: more ++ 'e' :: tail

def text (x : Binary64) : List Char :=
  let sign := if x.negative then ['-'] else []
  if x.mantissa = 0 then sign ++ ['0', '.', '0']
  else
    let (digits, power) := shortest x.mantissa x.exponent
    let (digits, power) := stripZeros (Nat.toDigits 10 digits) power
    sign ++ layout digits power

end Binary64

end MatrixSession.Json
