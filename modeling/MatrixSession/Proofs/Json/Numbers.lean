import MatrixSession.Proofs.Json.Strings
import MatrixSession.Text.Split

/-!
Numbers. The reader takes the longest number there is, so it takes the whole of one that a delimiter
follows.
-/
namespace MatrixSession.Json

open Utf8

def Stops (continues : UInt8 → Bool) (rest : List UInt8) : Prop :=
  ∀ b ∈ rest.head?, continues b = false

def isPointByte (b : UInt8) : Bool := b == 0x2E

def isExponentByte (b : UInt8) : Bool := b == 0x65 || b == 0x45

theorem digit_byte {c : Char} (digit : c.isDigit = true) :
    ∃ b, encodeChar c = [b] ∧ isDigitByte b = true ∧ (b = 0x30 → c = '0') := by
  have bounds : 0x30 ≤ c.toNat ∧ c.toNat ≤ 0x39 := by
    simpa [Char.isDigit, UInt32.le_iff_toNat_le] using digit
  have ascii : c.toNat < 0x80 := by omega
  have same : (UInt8.ofNat c.toNat).toNat = c.toNat :=
    UInt8.toNat_ofNat_of_lt' (Nat.lt_trans ascii (by decide))
  refine ⟨UInt8.ofNat c.toNat, if_pos ascii, ?_, fun zero => ?_⟩
  · simp only [isDigitByte, UInt8.le_iff_toNat_le, same, Bool.and_eq_true, decide_eq_true_eq]
    exact bounds
  · refine Char.toNat_inj.mp ?_
    rw [← same, zero]
    rfl

theorem digit_bytes {ds : List Char} (digits : ∀ c ∈ ds, c.isDigit = true) :
    ∀ b ∈ encodeChars ds, isDigitByte b = true := by
  intro b mem
  obtain ⟨c, inside, mem⟩ := List.mem_flatMap.mp mem
  obtain ⟨d, encoded, digit, -⟩ := digit_byte (digits c inside)
  rw [encoded, List.mem_singleton] at mem
  exact mem ▸ digit

theorem numeral_start {ds : List Char} (numeral : Decimal.IsNumeral ds) :
    ∃ b more, encodeChars ds = b :: more ∧ isDigitByte b = true ∧
      (b = 0x30 → ds.head? = some '0') := by
  obtain ⟨nonempty, digits⟩ := numeral
  obtain ⟨c, ds, rfl⟩ := List.exists_cons_of_ne_nil nonempty
  obtain ⟨b, encoded, digit, zero⟩ := digit_byte (digits c List.mem_cons_self)
  refine ⟨b, encodeChars ds, ?_, digit, fun same => congrArg some (zero same)⟩
  rw [encodeChars_cons, encoded, List.singleton_append]

section Parts

variable {rest : List UInt8} (noDigit : Stops isDigitByte rest)
include noDigit

theorem someDigits_numeral {ds : List Char} (numeral : Decimal.IsNumeral ds) :
    ∃ ns, someDigits (encodeChars ds ++ rest) = some (ns, rest) := by
  have remaining : (encodeChars ds ++ rest).dropWhile isDigitByte = rest :=
    Text.dropWhile_stops (digit_bytes numeral.2) noDigit
  have found : (digits (encodeChars ds ++ rest)).1 ≠ [] := by
    obtain ⟨b, more, encoded, digit, -⟩ := numeral_start numeral
    simp [digits, encoded, List.takeWhile_cons_of_pos digit]
  refine ⟨(digits (encodeChars ds ++ rest)).1, ?_⟩
  unfold someDigits
  split
  · next none => exact absurd (congrArg Prod.fst none) found
  · rw [digits, remaining]

theorem wholeDigits_whole {text : List Char} (whole : IsWhole text) :
    ∃ ns, wholeDigits (encodeChars text ++ rest) = some (ns, rest) := by
  obtain ⟨numeral, alone⟩ := whole
  have read := someDigits_numeral noDigit numeral
  obtain ⟨b, more, encoded, -, zero⟩ := numeral_start numeral
  by_cases start : b = 0x30
  · -- a zero stands alone, so the reader looks at what follows the number
    obtain rfl := alone (zero start)
    have zero : encodeChars ['0'] = [0x30] := rfl
    rw [zero] at read ⊢
    cases rest with
    | nil => exact read
    | cons d rest =>
      refine ⟨[0], ?_⟩
      simp [wholeDigits, noDigit d rfl]
  · rw [encoded, List.cons_append] at read ⊢
    rw [wholeDigits]
    · exact read
    · exact fun _ _ same => absurd (List.cons.inj same).1 start

theorem fractionDigits_fraction {text : List Char} (fraction : IsFraction text)
    (noPoint : Stops isPointByte rest) :
    ∃ ns, fractionDigits (encodeChars text ++ rest) = some (ns, rest) := by
  cases fraction with
  | none =>
    refine ⟨none, ?_⟩
    rw [encodeChars_nil, List.nil_append, fractionDigits.eq_def]
    split
    · next more => exact absurd (noPoint 0x2E rfl) (by decide)
    · rfl
  | point digits =>
    obtain ⟨ns, read⟩ := someDigits_numeral noDigit digits
    have point : encodeChar '.' = [0x2E] := rfl
    simp [point, fractionDigits, read]

theorem exponentDigits_signed {sign ds : List Char} (signed : sign ∈ [[], ['+'], ['-']])
    (digits : Decimal.IsNumeral ds) :
    ∃ n, exponentDigits (encodeChars sign ++ (encodeChars ds ++ rest)) = some (n, rest) := by
  obtain ⟨ns, read⟩ := someDigits_numeral noDigit digits
  simp only [List.mem_cons, List.not_mem_nil, or_false] at signed
  obtain rfl | rfl | rfl := signed
  · obtain ⟨b, more, encoded, digit, -⟩ := numeral_start digits
    have noSign {sign : UInt8} (other : isDigitByte sign = false) {more tail : List UInt8} :
        b :: more = sign :: tail → False := by
      intro same
      rw [(List.cons.inj same).1, other] at digit
      contradiction
    rw [encoded, List.cons_append] at read ⊢
    rw [encodeChars_nil, List.nil_append, exponentDigits, read]
    · exact ⟨_, rfl⟩
    · exact fun _ => noSign rfl
    · exact fun _ => noSign rfl
  · have plus : encodeChar '+' = [0x2B] := rfl
    simp [plus, exponentDigits, read]
  · have minus : encodeChar '-' = [0x2D] := rfl
    simp [minus, exponentDigits, read]

theorem exponentPart_exponent {text : List Char} (exponent : IsExponent text)
    (noExponent : Stops isExponentByte rest) :
    ∃ n, exponentPart (encodeChars text ++ rest) = some (n, rest) := by
  cases exponent with
  | none =>
    refine ⟨none, ?_⟩
    rw [encodeChars_nil, List.nil_append, exponentPart.eq_def]
    split
    · exact absurd (noExponent 0x65 rfl) (by decide)
    · exact absurd (noExponent 0x45 rfl) (by decide)
    · rfl
  | some letter signed digits =>
    obtain ⟨n, read⟩ := exponentDigits_signed noDigit signed digits
    simp only [List.mem_cons, List.not_mem_nil, or_false] at letter
    obtain rfl | rfl := letter
    · have lower : encodeChar 'e' = [0x65] := rfl
      exact ⟨n, by simp [lower, exponentPart, read]⟩
    · have upper : encodeChar 'E' = [0x45] := rfl
      exact ⟨n, by simp [upper, exponentPart, read]⟩

end Parts

def Delimited (rest : List UInt8) : Prop :=
  ∀ b ∈ rest.head?, isBlankByte b = true ∨ b = 0x2C ∨ b = 0x5D ∨ b = 0x7D

theorem Delimited.stops {rest : List UInt8} (delimited : Delimited rest) :
    Stops isDigitByte rest ∧ Stops isPointByte rest ∧ Stops isExponentByte rest := by
  have other {b : UInt8} (mem : b ∈ rest.head?) :
      isDigitByte b = false ∧ isPointByte b = false ∧ isExponentByte b = false := by
    have listed := delimited b mem
    simp only [isBlankByte, Bool.or_eq_true, beq_iff_eq, or_assoc] at listed
    obtain rfl | rfl | rfl | rfl | rfl | rfl | rfl := listed <;> decide
  exact ⟨fun b mem => (other mem).1, fun b mem => (other mem).2.1, fun b mem => (other mem).2.2⟩

theorem stops_cons {continues : UInt8 → Bool} {b : UInt8} (other : continues b = false)
    (rest : List UInt8) : Stops continues (b :: rest) := by
  rintro _ ⟨⟩
  exact other

theorem numeral_number {text : List Char} (number : IsNumber text) {rest : List UInt8}
    (delimited : Delimited rest) : ∃ n, numeral (encodeChars text ++ rest) = some (n, rest) := by
  obtain ⟨signed, before, after, power⟩ := number
  rename_i sign whole fraction exponent
  obtain ⟨noDigit, noPoint, noExponent⟩ := delimited.stops
  have ⟨pointless, digitless⟩ : Stops isPointByte (encodeChars exponent ++ rest) ∧
      Stops isDigitByte (encodeChars exponent ++ rest) := by
    cases power with
    | none => exact ⟨noPoint, noDigit⟩
    | some letter signed digits =>
      simp only [List.mem_cons, List.not_mem_nil, or_false] at letter
      obtain rfl | rfl := letter <;> exact ⟨stops_cons rfl _, stops_cons rfl _⟩
  have bare : Stops isDigitByte (encodeChars fraction ++ (encodeChars exponent ++ rest)) := by
    cases after with
    | none => exact digitless
    | point digits => exact stops_cons rfl _
  obtain ⟨ws, readWhole⟩ := wholeDigits_whole bare before
  obtain ⟨fs, readFraction⟩ := fractionDigits_fraction digitless after pointless
  obtain ⟨e, readExponent⟩ := exponentPart_exponent noDigit power noExponent
  simp only [List.mem_cons, List.not_mem_nil, or_false] at signed
  obtain rfl | rfl := signed
  · obtain ⟨b, more, encoded, digit, -⟩ := numeral_start before.1
    have unsigned : b ≠ 0x2D := by
      rintro rfl
      contradiction
    rw [encoded, List.cons_append] at readWhole
    refine ⟨⟨false, ws, fs, e⟩, ?_⟩
    simp only [List.nil_append, encodeChars_append, encoded, List.cons_append, List.append_assoc,
      numeral]
    split
    · next minus => exact absurd (List.cons.inj minus).1 unsigned
    · simp [readWhole, readFraction, readExponent]
  · have minus : encodeChar '-' = [0x2D] := rfl
    simp [minus, numeral, readWhole, readFraction, readExponent]

end MatrixSession.Json
