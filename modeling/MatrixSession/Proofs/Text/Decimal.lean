import MatrixSession.Text.Decimal
import Mathlib.Data.List.Induction
import Mathlib.Tactic.IntervalCases

/-!
The grammar of decimal numerals, written down apart from the reader: what a run of digits denotes is said
digit by digit, from the left. A number denotes itself when it is printed.
-/
namespace MatrixSession.Decimal

variable {c : Char} {text : List Char} {bound n : Nat}

def IsDigit (c : Char) (n : Nat) : Prop := "0123456789".toList[n]? = some c

/-- A digit denotes its value. Each further one makes ten times as much of those before it. -/
inductive Denotes : List Char → Nat → Prop
  | digit {c : Char} {n : Nat} (digit : IsDigit c n) : Denotes [c] n
  | further {text : List Char} {c : Char} {m n : Nat} (front : Denotes text m)
      (digit : IsDigit c n) : Denotes (text ++ [c]) (10 * m + n)

theorem isDigit_iff : IsDigit c n ↔ c.isDigit = true ∧ c.toNat - '0'.toNat = n := by
  constructor
  · intro digit
    obtain ⟨small, same⟩ := List.getElem?_eq_some_iff.mp digit
    have small : n < 10 := small
    subst same
    interval_cases n <;> exact ⟨rfl, rfl⟩
  · intro ⟨digit, value⟩
    obtain ⟨low, high⟩ := Char.isDigit_iff_toNat.mp digit
    have low : 0x30 ≤ c.toNat := low
    have high : c.toNat ≤ 0x39 := high
    have spelled : c = Char.ofNat (0x30 + n) := by
      rw [← value]
      change c = Char.ofNat (0x30 + (c.toNat - 0x30))
      rw [Nat.add_sub_cancel' low, Char.ofNat_toNat]
    have small : n < 10 := by
      change c.toNat - 0x30 = n at value
      omega
    subst spelled
    interval_cases n <;> rfl

theorem value_single (c : Char) : value [c] = c.toNat - '0'.toNat := by
  simp [value, Nat.ofDigitChars_cons, Nat.ofDigitChars_nil]

theorem value_further (text : List Char) (c : Char) :
    value (text ++ [c]) = 10 * value text + (c.toNat - '0'.toNat) := by
  simp [value, Nat.ofDigitChars_append, Nat.ofDigitChars_cons, Nat.ofDigitChars_nil]

theorem denotes_iff : Denotes text n ↔ IsNumeral text ∧ value text = n := by
  constructor
  · intro denotes
    induction denotes with
    | digit digit =>
      obtain ⟨isDigit, same⟩ := isDigit_iff.mp digit
      exact ⟨⟨by simp, by simpa using isDigit⟩, (value_single _).trans same⟩
    | further front digit ih =>
      obtain ⟨⟨-, digits⟩, rfl⟩ := ih
      obtain ⟨isDigit, rfl⟩ := isDigit_iff.mp digit
      refine ⟨⟨by simp, ?_⟩, value_further _ _⟩
      exact List.forall_mem_append.mpr ⟨digits, by simpa using isDigit⟩
  · rintro ⟨⟨nonempty, digits⟩, rfl⟩
    induction text using List.reverseRecOn with
    | nil => contradiction
    | append_singleton front c ih =>
      obtain ⟨before, last⟩ := List.forall_mem_append.mp digits
      have digit := isDigit_iff.mpr ⟨last c List.mem_cons_self, rfl⟩
      by_cases alone : front = []
      · subst alone
        rw [List.nil_append, value_single]
        exact .digit digit
      · rw [value_further]
        exact .further (ih alone before) digit

theorem read?_iff_denotes : read? bound text = some n ↔ Denotes text n ∧ n < bound := by
  rw [read?_eq_some_iff, denotes_iff, and_assoc]

theorem Denotes.digits (denotes : Denotes text n) : ∀ c ∈ text, c.isDigit = true :=
  (denotes_iff.mp denotes).1.2

theorem readUnsigned?_iff_denotes : readUnsigned? bound text = some n ↔
    ∃ sign digits, sign ∈ [[], ['+']] ∧ text = sign ++ digits ∧ Denotes digits n ∧ n < bound := by
  have plus (digits : List Char) : ¬Denotes ('+' :: digits) n := by
    intro denotes
    exact absurd (denotes.digits '+' List.mem_cons_self) (by decide)
  unfold readUnsigned?
  split
  · rename_i digits
    simp [read?_iff_denotes, plus]
  · rename_i unsigned
    have signless (digits : List Char) : text ≠ '+' :: digits := unsigned digits
    simp [read?_iff_denotes, signless]

theorem denotes_numeral (n : Nat) : Denotes (numeral n).toList n := by
  rw [numeral, String.toList_ofList, denotes_iff]
  refine ⟨⟨Nat.toDigits_ne_nil, ?_⟩, Nat.ofDigitChars_toDigits (by decide) (by decide)⟩
  intro c mem
  exact Nat.isDigit_of_mem_toDigits (by decide) (by decide) mem

end MatrixSession.Decimal
