/-!
Decimal numerals: non-empty runs of ASCII digits of any length, leading zeros allowed. A reader
is given a bound and refuses larger values, so no value is ever wrapped or cut.
-/
namespace MatrixSession.Decimal

def IsNumeral (text : List Char) : Prop := text ≠ [] ∧ ∀ c ∈ text, c.isDigit = true

instance (text : List Char) : Decidable (IsNumeral text) :=
  decidable_of_iff (text ≠ [] ∧ text.all Char.isDigit = true) (by simp [IsNumeral])

def value (text : List Char) : Nat := Nat.ofDigitChars 10 text 0

def read? (bound : Nat) (text : List Char) : Option Nat :=
  if IsNumeral text ∧ value text < bound then some (value text) else none

def readUnsigned? (bound : Nat) : List Char → Option Nat
  | '+' :: digits => read? bound digits
  | digits => read? bound digits

def numeral (n : Nat) : String := String.ofList (Nat.toDigits 10 n)

theorem read?_eq_some_iff {bound n : Nat} {text : List Char} :
    read? bound text = some n ↔ IsNumeral text ∧ value text = n ∧ n < bound := by
  unfold read?
  split
  · next h =>
    simp only [Option.some.injEq]
    exact ⟨fun same => ⟨h.1, same, same ▸ h.2⟩, fun g => g.2.1⟩
  · next h =>
    simp only [reduceCtorEq, false_iff]
    exact fun ⟨hn, hv, hb⟩ => h ⟨hn, hv ▸ hb⟩

end MatrixSession.Decimal
