import MatrixSession.Json.Reader
import MatrixSession.Proofs.Json.Grammar
import MatrixSession.Proofs.Text.Utf8

/-!
Strings: what the grammar spells out, the readers of strings read. A string that is passed over may
hold surrogates without a partner; one that is read may not.
-/
namespace MatrixSession.Json

open Utf8

section Escapes

theorem hex_digit {c : Char} {n : Nat} (digit : IsHexDigit c n) :
    ∃ b : UInt8, encodeChar c = [b] ∧ Hex.value? b.toNat = some n := by
  have small : n < 16 := by
    obtain h | h := digit <;> exact (List.getElem?_eq_some_iff.mp h).1
  unfold IsHexDigit at digit
  interval_cases n <;> obtain h | h := digit <;> cases h <;> exact ⟨_, rfl, rfl⟩

theorem escaped_unit {text : List Char} {n : Nat} (escaped : EscapedUnit text n) :
    ∃ a b c d, encodeChars text = [0x5C, 0x75, a, b, c, d] ∧ hexUnit? a b c d = some n := by
  obtain ⟨first, second, third, fourth, joined⟩ := escaped
  obtain ⟨a, ha, first⟩ := hex_digit first
  obtain ⟨b, hb, second⟩ := hex_digit second
  obtain ⟨c, hc, third⟩ := hex_digit third
  obtain ⟨d, hd, fourth⟩ := hex_digit fourth
  refine ⟨a, b, c, d, ?_, ?_⟩
  · simp only [encodeChars_cons, ha, hb, hc, hd]
    rfl
  · simp only [hexUnit?, first, second, third, fourth, bind, Option.bind]
    congr 1
    omega

theorem short_escape {e c : Char} (listed : (e, c) ∈ shortEscapes) :
    ∃ b d : UInt8, encodeChar e = [b] ∧ encodeChar c = [d] ∧ escape? b = some d ∧ b ≠ 0x75 := by
  simp only [shortEscapes, List.mem_cons, Prod.mk.injEq, List.not_mem_nil, or_false] at listed
  obtain h | h | h | h | h | h | h | h := listed <;> obtain ⟨rfl, rfl⟩ := h <;>
    exact ⟨_, _, rfl, rfl, rfl, by decide⟩

def PlainByte (b : UInt8) : Prop := 0x20 ≤ b ∧ b ≠ 0x22 ∧ b ≠ 0x5C

theorem plainByte_ofNat {n : Nat} (small : n < 0x100) (visible : 0x20 ≤ n) (unquoted : n ≠ 0x22)
    (unescaped : n ≠ 0x5C) : PlainByte (UInt8.ofNat n) := by
  have same : (UInt8.ofNat n).toNat = n := UInt8.toNat_ofNat_of_lt' small
  refine ⟨?_, fun quote => unquoted ?_, fun escape => unescaped ?_⟩
  · rw [UInt8.le_iff_toNat_le, same]
    exact visible
  · rw [← same, quote]
    rfl
  · rw [← same, escape]
    rfl

theorem plain_bytes {c : Char} (visible : 0x20 ≤ c.toNat) (unquoted : c ≠ '"')
    (unescaped : c ≠ '\\') : ∀ b ∈ encodeChar c, PlainByte b := by
  have range := scalar c
  have high {n : Nat} (least : 0x80 ≤ n) (small : n < 0x100) : PlainByte (UInt8.ofNat n) :=
    plainByte_ofNat small (by omega) (by omega) (by omega)
  simp only [encodeChar]
  split_ifs with one two three <;>
    simp only [List.forall_mem_cons, List.not_mem_nil, false_implies, implies_true, and_true]
  · exact plainByte_ofNat (by omega) visible (fun same => unquoted (Char.toNat_inj.mp same))
      fun same => unescaped (Char.toNat_inj.mp same)
  · exact ⟨high (by omega) (by omega), high (by omega) (by omega)⟩
  · exact ⟨high (by omega) (by omega), high (by omega) (by omega), high (by omega) (by omega)⟩
  · exact ⟨high (by omega) (by omega), high (by omega) (by omega), high (by omega) (by omega),
      high (by omega) (by omega)⟩

end Escapes

section Strings

theorem stringBytes_plain {bytes more rest tail : List UInt8} (plain : ∀ b ∈ bytes, PlainByte b)
    (read : stringBytes rest = some (more, tail)) :
    stringBytes (bytes ++ rest) = some (bytes ++ more, tail) := by
  induction bytes with
  | nil => exact read
  | cons b bytes ih =>
    obtain ⟨visible, unquoted, unescaped⟩ := plain b List.mem_cons_self
    have shorter := ih fun d mem => plain d (List.mem_cons_of_mem b mem)
    rw [List.cons_append, stringBytes]
    · simp [guard, visible, shorter]
    · exact unquoted
    · exact fun _ _ _ _ _ escape => absurd escape unescaped
    · exact fun _ _ escape => absurd escape unescaped

theorem skipString_plain {bytes : List UInt8} (plain : ∀ b ∈ bytes, PlainByte b)
    (rest : List UInt8) : skipString (bytes ++ rest) = skipString rest := by
  induction bytes with
  | nil => rfl
  | cons b bytes ih =>
    obtain ⟨visible, unquoted, unescaped⟩ := plain b List.mem_cons_self
    have shorter := ih fun d mem => plain d (List.mem_cons_of_mem b mem)
    rw [List.cons_append, skipString]
    · rw [if_pos visible, shorter]
    · exact unquoted
    · exact fun _ _ _ _ _ escape => absurd escape unescaped
    · exact fun _ _ escape => absurd escape unescaped

theorem skipString_unit {text : List Char} {n : Nat} (escaped : EscapedUnit text n)
    (rest : List UInt8) : skipString (encodeChars text ++ rest) = skipString rest := by
  obtain ⟨a, b, c, d, written, value⟩ := escaped_unit escaped
  rw [written, List.cons_append, List.cons_append]
  simp [skipString, value]

theorem stringBytes_spelled {text : List Char} {c : Char} (spells : Spells text (some c))
    {more rest tail : List UInt8} (read : stringBytes rest = some (more, tail)) :
    stringBytes (encodeChars text ++ rest) = some (encodeChar c ++ more, tail) := by
  cases spells with
  | plain visible unquoted unescaped =>
    rw [encodeChars_cons, encodeChars_nil, List.append_nil]
    exact stringBytes_plain (plain_bytes visible unquoted unescaped) read
  | short listed =>
    obtain ⟨b, d, written, meant, escape, short⟩ := short_escape listed
    have opened : encodeChar '\\' = [0x5C] := rfl
    simp only [encodeChars_cons, encodeChars_nil, opened, written, meant, List.append_nil,
      List.cons_append, List.nil_append]
    rw [stringBytes]
    · simp [escape, read]
    · exact fun _ _ _ _ _ long => absurd long short
  | @unit _ c escaped =>
    obtain ⟨_, _, _, _, written, value⟩ := escaped_unit escaped
    simp only [written, List.cons_append, List.nil_append]
    have range := scalar c
    rw [stringBytes]
    simp only [value, Option.bind_eq_bind, Option.bind_some]
    rw [if_neg (by omega), if_neg (by omega), read, Char.ofNat_toNat]
    rfl
  | pair first leading second trailing joined =>
    obtain ⟨_, _, _, _, written, value⟩ := escaped_unit first
    obtain ⟨_, _, _, _, written', value'⟩ := escaped_unit second
    simp only [encodeChars_append, written, written', List.cons_append, List.nil_append]
    have ⟨leads, highest⟩ : 0xD800 ≤ _ ∧ _ ≤ 0xDBFF := leading
    have trails : 0xDC00 ≤ _ ∧ _ ≤ 0xDFFF := trailing
    rw [stringBytes]
    simp only [value, value', Option.bind_eq_bind, Option.bind_some, surrogatePair?]
    rw [if_neg (by omega), if_pos ⟨leads, highest⟩, if_pos trails, ← joined, Char.ofNat_toNat]
    simp only [Option.bind_some, read]

theorem skipString_spelled {text : List Char} {c : Option Char} (spells : Spells text c)
    (rest : List UInt8) : skipString (encodeChars text ++ rest) = skipString rest := by
  cases spells with
  | plain visible unquoted unescaped =>
    rw [encodeChars_cons, encodeChars_nil, List.append_nil]
    exact skipString_plain (plain_bytes visible unquoted unescaped) rest
  | short listed =>
    obtain ⟨b, d, written, -, escape, short⟩ := short_escape listed
    have opened : encodeChar '\\' = [0x5C] := rfl
    simp only [encodeChars_cons, encodeChars_nil, opened, written, List.append_nil,
      List.cons_append, List.nil_append]
    rw [skipString]
    · simp [escape]
    · exact fun _ _ _ _ _ long => absurd long short
  | unit escaped => exact skipString_unit escaped rest
  | lone escaped => exact skipString_unit escaped rest
  | pair first leading second =>
    rw [encodeChars_append, List.append_assoc, skipString_unit first, skipString_unit second]

theorem stringBytes_closed {text : List Char} {content : Content} (spelled : Spelled text content)
    {cs : List Char} (whole : content = cs.map some) (rest : List UInt8) :
    stringBytes (encodeChars text ++ 0x22 :: rest) = some (encodeChars cs, rest) := by
  induction spelled generalizing cs with
  | nil =>
    obtain rfl : cs = [] := List.map_eq_nil_iff.mp whole.symm
    rfl
  | cons first more ih =>
    obtain ⟨c, cs, rfl, rfl, shorter⟩ := List.map_eq_cons_iff.mp whole.symm
    rw [encodeChars_append, List.append_assoc, encodeChars_cons]
    exact stringBytes_spelled first (ih shorter.symm)

theorem skipString_closed {text : List Char} {content : Content} (spelled : Spelled text content)
    (rest : List UInt8) : skipString (encodeChars text ++ 0x22 :: rest) = some rest := by
  induction spelled with
  | nil => rfl
  | cons first more ih => rw [encodeChars_append, List.append_assoc, skipString_spelled first, ih]

theorem encodeChars_between {left right : Char} {a b : UInt8} (first : encodeChar left = [a])
    (last : encodeChar right = [b]) (inner : List Char) (rest : List UInt8) :
    encodeChars (left :: inner ++ [right]) ++ rest = a :: (encodeChars inner ++ b :: rest) := by
  simp [first, last]

theorem string_quoted {text : List Char} {s : String} (quoted : Quoted text (.ofString s))
    (rest : List UInt8) : string (encodeChars text ++ rest) = some (s, rest) := by
  obtain ⟨spelled⟩ := quoted
  rw [encodeChars_between (a := 0x22) (b := 0x22) rfl rfl]
  simp only [string, stringTail, stringBytes_closed spelled rfl, decode?_encodeChars,
    Option.bind_eq_bind, Option.bind_some, String.ofList_toList]

end Strings

end MatrixSession.Json
