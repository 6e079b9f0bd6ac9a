/-!
Hexadecimal digits, two to a byte.
-/
namespace MatrixSession.Hex

def lowerDigit (n : Nat) : Char := Char.ofNat (if n < 10 then 0x30 + n else 0x57 + n)

def upperDigit (n : Nat) : Char := Char.ofNat (if n < 10 then 0x30 + n else 0x37 + n)

def value? (code : Nat) : Option Nat :=
  if 0x30 ≤ code ∧ code ≤ 0x39 then some (code - 0x30)
  else if 0x41 ≤ code ∧ code ≤ 0x46 then some (code - 0x37)
  else if 0x61 ≤ code ∧ code ≤ 0x66 then some (code - 0x57)
  else none

def ofBytes (bytes : List UInt8) : String :=
  String.ofList (bytes.flatMap fun b => [lowerDigit (b.toNat / 16), lowerDigit (b.toNat % 16)])

def toBytes? : List Char → Option (List UInt8)
  | [] => some []
  | high :: low :: rest => do
    let high ← value? high.toNat
    let low ← value? low.toNat
    let bytes ← toBytes? rest
    some (UInt8.ofNat (16 * high + low) :: bytes)
  | _ => none

def ofNat (n : Nat) : String := String.ofList (Nat.toDigits 16 n)

theorem value?_lowerDigit {n : Nat} (small : n < 16) : value? (lowerDigit n).toNat = some n := by
  revert n; decide

theorem toBytes?_ofBytes (bytes : List UInt8) : toBytes? (ofBytes bytes).toList = some bytes := by
  rw [ofBytes, String.toList_ofList]
  induction bytes with
  | nil => rfl
  | cons b bytes ih =>
    have high : b.toNat / 16 < 16 := Nat.div_lt_of_lt_mul b.toNat_lt
    have low : b.toNat % 16 < 16 := Nat.mod_lt _ (by decide)
    have whole : 16 * (b.toNat / 16) + b.toNat % 16 = b.toNat := Nat.div_add_mod _ _
    simp only [List.flatMap_cons, List.cons_append, List.nil_append, toBytes?, value?_lowerDigit high,
      value?_lowerDigit low, ih, Option.bind_eq_bind, Option.bind_some, whole, UInt8.ofNat_toNat]

end MatrixSession.Hex
