import MatrixSession.Proofs.Text.Utf8
import MatrixSession.Url.Percent

/-!
Percent-encoding can be undone, and what it writes holds nothing that it encodes.
-/
namespace MatrixSession

theorem Hex.upperDigit_byte {n : Nat} (small : n < 16) :
    Hex.upperDigit n ∈ "0123456789ABCDEF".toList ∧
      ∃ b, Utf8.encodeChar (Hex.upperDigit n) = [b] ∧ Hex.value? b.toNat = some n := by
  interval_cases n <;> exact ⟨by decide, _, rfl, rfl⟩

namespace Utf8

theorem encodeChar_ascii {c : Char} (ascii : c.toNat < 0x80) :
    encodeChar c = [UInt8.ofNat c.toNat] := if_pos ascii

theorem encodeChars_injective {a b : List Char} (same : encodeChars a = encodeChars b) : a = b := by
  have units := congrArg (units .start) same
  rw [units_encodeChars, units_encodeChars] at units
  exact (List.map_inj_right fun _ _ => Option.some.inj).mp units

end Utf8

namespace Percent

open Utf8 (encodeChars)

theorem decode_plain {b : UInt8} (plain : b ≠ 0x25) (rest : List UInt8) :
    decode (b :: rest) = b :: decode rest := by
  rw [decode]
  intro high low more percent
  exact absurd percent plain

theorem decode_char {c : Char} (ascii : c.toNat < 0x80) (other : c ≠ '%') (rest : List UInt8) :
    decode (Utf8.encodeChar c ++ rest) = Utf8.encodeChar c ++ decode rest := by
  rw [Utf8.encodeChar_ascii ascii]
  refine decode_plain (fun same => other ?_) rest
  have value := congrArg UInt8.toNat same
  rw [UInt8.toNat_ofNat_of_lt' (Nat.lt_trans ascii (by decide))] at value
  exact Char.toNat_inj.mp value

theorem decode_encodeByte (b : UInt8) (rest : List UInt8) :
    decode (encodeChars (encodeByte b) ++ rest) = b :: decode rest := by
  have small := b.toNat_lt
  obtain ⟨-, high, highByte, highValue⟩ := Hex.upperDigit_byte (n := b.toNat / 16) (by omega)
  obtain ⟨-, low, lowByte, lowValue⟩ := Hex.upperDigit_byte (n := b.toNat % 16) (by omega)
  have whole : 16 * (b.toNat / 16) + b.toNat % 16 = b.toNat := Nat.div_add_mod _ _
  have percent : Utf8.encodeChar '%' = [0x25] := rfl
  simp only [encodeByte, Utf8.encodeChars_cons, Utf8.encodeChars_nil, percent, highByte, lowByte,
    List.cons_append, List.nil_append, decode, highValue, lowValue, whole, UInt8.ofNat_toNat]

theorem decode_encodeBytes (bytes rest : List UInt8) :
    decode (encodeChars (bytes.flatMap encodeByte) ++ rest) = bytes ++ decode rest := by
  induction bytes with
  | nil => rfl
  | cons b bytes ih =>
    rw [List.flatMap_cons, Utf8.encodeChars_append, List.append_assoc, decode_encodeByte, ih]
    rfl

theorem mem_encodeBytes {c : Char} {bytes : List UInt8} (mem : c ∈ bytes.flatMap encodeByte) :
    c ∈ "%0123456789ABCDEF".toList := by
  obtain ⟨b, -, mem⟩ := List.mem_flatMap.mp mem
  have small := b.toNat_lt
  obtain ⟨high, -⟩ := Hex.upperDigit_byte (n := b.toNat / 16) (by omega)
  obtain ⟨low, -⟩ := Hex.upperDigit_byte (n := b.toNat % 16) (by omega)
  simp only [encodeByte, List.mem_cons, List.not_mem_nil, or_false] at mem
  obtain rfl | rfl | rfl := mem
  · decide
  · exact List.mem_cons_of_mem '%' high
  · exact List.mem_cons_of_mem '%' low

variable {s : EncodeSet}

theorem EncodeSet.ascii {c : Char} (free : s.contains c = false) : c.toNat < 0x80 := by
  simp only [EncodeSet.contains, Bool.or_eq_false_iff, decide_eq_false_iff_not] at free
  have high : c.toNat ≤ 0x7E := Nat.le_of_not_lt free.1.2
  omega

theorem decode_encode (percent : s.contains '%' = true) (text : List Char) (rest : List UInt8) :
    decode (encodeChars (encode s text) ++ rest) = encodeChars text ++ decode rest := by
  induction text with
  | nil => rfl
  | cons c text ih =>
    rw [encode, List.flatMap_cons, ← encode, Utf8.encodeChars_append, List.append_assoc,
      Utf8.encodeChars_cons, List.append_assoc, ← ih, encodeChar]
    cases free : s.contains c with
    | true => rw [if_pos rfl, decode_encodeBytes]
    | false =>
      rw [if_neg Bool.false_ne_true, Utf8.encodeChars_cons, Utf8.encodeChars_nil, List.append_nil]
      refine decode_char (EncodeSet.ascii free) ?_ _
      rintro rfl
      exact Bool.false_ne_true (free.symm.trans percent)

theorem mem_encode {c : Char} {text : List Char} (mem : c ∈ encode s text) :
    (c ∈ text ∧ s.contains c = false) ∨ c ∈ "%0123456789ABCDEF".toList := by
  obtain ⟨d, inside, mem⟩ := List.mem_flatMap.mp mem
  unfold encodeChar at mem
  split at mem
  · exact .inr (mem_encodeBytes mem)
  · rename_i free
    obtain rfl := List.mem_singleton.mp mem
    exact .inl ⟨inside, Bool.of_not_eq_true free⟩

theorem not_mem_encode {c : Char} (encoded : s.contains c = true)
    (other : c ∉ "%0123456789ABCDEF".toList) (text : List Char) : c ∉ encode s text := by
  intro mem
  obtain ⟨-, free⟩ := (mem_encode mem).resolve_right other
  exact Bool.false_ne_true (free.symm.trans encoded)

end Percent

end MatrixSession
