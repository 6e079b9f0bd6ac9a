import MatrixSession.Text.Utf8
import Mathlib.Tactic.IntervalCases

/-!
Decoding and encoding UTF-8 undo each other. From the start of a character the decoder reads exactly
that character and is at the start of the next one, and bytes that it reads without an ill-formed
sequence are an encoding.
-/
namespace MatrixSession.Utf8

@[simp] theorem encodeChars_nil : encodeChars [] = [] := rfl

@[simp] theorem encodeChars_cons (c : Char) (text : List Char) :
    encodeChars (c :: text) = encodeChar c ++ encodeChars text := rfl

@[simp] theorem encodeChars_append (a b : List Char) :
    encodeChars (a ++ b) = encodeChars a ++ encodeChars b := List.flatMap_append

theorem scalar (c : Char) : c.toNat < 0xD800 ∨ 0xDFFF < c.toNat ∧ c.toNat < 0x110000 := c.valid

theorem lead_two {k : Nat} (least : 2 ≤ k) (most : k < 0x20) :
    lead? (0xC0 + k) = some (.inside 0 0x80 0xBF k) := by
  rw [lead?, if_neg (by omega), if_pos (by omega), Nat.add_sub_cancel_left]

theorem lead_three {k : Nat} (most : k < 0x10) :
    lead? (0xE0 + k) =
      some (.inside 1 (if k = 0 then 0xA0 else 0x80) (if k = 0xD then 0x9F else 0xBF) k) := by
  interval_cases k <;> rfl

theorem lead_four {k : Nat} (most : k < 5) :
    lead? (0xF0 + k) =
      some (.inside 2 (if k = 0 then 0x90 else 0x80) (if k = 4 then 0x8F else 0xBF) k) := by
  interval_cases k <;> rfl

theorem units_step {b : Nat} {state after : State} {done : List (Option Char)} (small : b < 0x100)
    (stepped : step b state = (done, after)) (rest : List UInt8) :
    units state (UInt8.ofNat b :: rest) = done ++ units after rest := by
  have same : (UInt8.ofNat b).toNat = b := UInt8.toNat_ofNat_of_lt' small
  cases state <;> simp only [units, same, stepped]

theorem units_lead {b : Nat} {state : State} (beyond : 0x80 ≤ b) (small : b < 0x100)
    (lead : lead? b = some state) (rest : List UInt8) :
    units .start (UInt8.ofNat b :: rest) = units state rest := by
  refine (units_step small ?_ rest).trans (List.nil_append _)
  rw [step, enter, if_neg (by omega), lead]

section Continuation

variable {k low high acc : Nat} (least : low ≤ 0x80 + k) (most : 0x80 + k ≤ high) (small : k < 0x40)
include least most small

theorem units_inside {more : Nat} (rest : List UInt8) :
    units (.inside (more + 1) low high acc) (UInt8.ofNat (0x80 + k) :: rest) =
      units (.inside more 0x80 0xBF (acc * 0x40 + k)) rest := by
  refine (units_step (by omega) ?_ rest).trans (List.nil_append _)
  simp only [step, least, most, and_self, if_true, Nat.add_sub_cancel_left]

theorem units_last (rest : List UInt8) :
    units (.inside 0 low high acc) (UInt8.ofNat (0x80 + k) :: rest) =
      some (Char.ofNat (acc * 0x40 + k)) :: units .start rest := by
  refine (units_step (by omega) ?_ rest).trans (List.singleton_append)
  simp only [step, least, most, and_self, if_true, Nat.add_sub_cancel_left]

end Continuation

theorem units_encodeChar (c : Char) (rest : List UInt8) :
    units .start (encodeChar c ++ rest) = some c :: units .start rest := by
  have range := scalar c
  have back {n : Nat} (same : n = c.toNat) : Char.ofNat n = c := by rw [same, Char.ofNat_toNat]
  generalize size : c.toNat = n at range back
  simp only [encodeChar, size]
  -- the second byte of three and of four is bounded by what the first one allows
  split_ifs with one two three <;> simp only [List.cons_append, List.nil_append]
  · refine (units_step (by omega) ?_ rest).trans List.singleton_append
    rw [step, enter, if_pos one, back rfl]
  · rw [units_lead (by omega) (by omega) (lead_two (by omega) (by omega)),
      units_last (by omega) (by omega) (by omega), back (by omega)]
  · rw [units_lead (by omega) (by omega) (lead_three (by omega)),
      units_inside (by split <;> omega) (by split <;> omega) (by omega),
      units_last (by omega) (by omega) (by omega), back (by omega)]
  · rw [units_lead (by omega) (by omega) (lead_four (by omega)),
      units_inside (by split <;> omega) (by split <;> omega) (by omega),
      units_inside (by omega) (by omega) (by omega),
      units_last (by omega) (by omega) (by omega), back (by omega)]

theorem units_encodeChars (text : List Char) :
    units .start (encodeChars text) = text.map some := by
  induction text with
  | nil => rfl
  | cons c text ih => rw [encodeChars_cons, units_encodeChar, ih, List.map_cons]

theorem mapM_id_eq_some_iff {α : Type} {list : List (Option α)} {all : List α} :
    list.mapM id = some all ↔ list = all.map some := by
  induction list generalizing all with
  | nil => cases all <;> simp
  | cons first list ih =>
    simp only [List.mapM_cons, id, Option.bind_eq_bind, Option.bind_eq_some_iff, ih]
    constructor
    · rintro ⟨a, rfl, rest, rfl, ⟨⟩⟩
      rfl
    · intro same
      obtain ⟨a, rest, rfl, rfl, rfl⟩ := List.map_eq_cons_iff.mp same.symm
      exact ⟨a, rfl, rest, rfl, rfl⟩

theorem decode?_encodeChars (text : List Char) :
    decode? (encodeChars text) = some (String.ofList text) := by
  have all : (text.map some).mapM id = some text := mapM_id_eq_some_iff.mpr rfl
  rw [decode?, decodeChars?, units_encodeChars, all, Option.map_some]

section Reading

variable {bytes : List UInt8} {text : List Char}

theorem lead_cases {b : Nat} {state : State} (lead : lead? b = some state) :
    (∃ k, 2 ≤ k ∧ k < 0x20 ∧ b = 0xC0 + k ∧ state = .inside 0 0x80 0xBF k) ∨
    (∃ k, k < 0x10 ∧ b = 0xE0 + k ∧
      state = .inside 1 (if k = 0 then 0xA0 else 0x80) (if k = 0xD then 0x9F else 0xBF) k) ∨
    ∃ k, k < 5 ∧ b = 0xF0 + k ∧
      state = .inside 2 (if k = 0 then 0x90 else 0x80) (if k = 4 then 0x8F else 0xBF) k := by
  have least : 0xC2 ≤ b := by
    by_contra low
    rw [lead?, if_pos (by omega)] at lead
    contradiction
  have most : b < 0xF5 := by
    by_contra high
    simp only [lead?] at lead
    split_ifs at lead <;> omega
  by_cases two : b < 0xE0
  · obtain ⟨k, rfl⟩ := Nat.exists_eq_add_of_le (show 0xC0 ≤ b by omega)
    rw [lead_two (by omega) (by omega)] at lead
    exact .inl ⟨k, by omega, by omega, rfl, (Option.some.inj lead).symm⟩
  by_cases three : b < 0xF0
  · obtain ⟨k, rfl⟩ := Nat.exists_eq_add_of_le (show 0xE0 ≤ b by omega)
    rw [lead_three (by omega)] at lead
    exact .inr (.inl ⟨k, by omega, rfl, (Option.some.inj lead).symm⟩)
  · obtain ⟨k, rfl⟩ := Nat.exists_eq_add_of_le (show 0xF0 ≤ b by omega)
    rw [lead_four (by omega)] at lead
    exact .inr (.inr ⟨k, by omega, rfl, (Option.some.inj lead).symm⟩)

theorem exists_continuation {more low high acc : Nat} (least : 0x80 ≤ low) (most : high ≤ 0xBF)
    (read : units (.inside more low high acc) bytes = text.map some) :
    ∃ k rest, k < 0x40 ∧ low ≤ 0x80 + k ∧ 0x80 + k ≤ high ∧
      bytes = UInt8.ofNat (0x80 + k) :: rest := by
  cases bytes with
  | nil =>
    have unfinished : none ∈ text.map some := by simp [← read, units]
    simp at unfinished
  | cons b rest =>
    by_cases continues : low ≤ b.toNat ∧ b.toNat ≤ high
    · refine ⟨b.toNat - 0x80, rest, by omega, by omega, by omega, ?_⟩
      rw [Nat.add_sub_cancel' (by omega), UInt8.ofNat_toNat]
    · have refused : none ∈ text.map some := by simp [← read, units, step, continues]
      simp at refused

theorem toNat_scalar {n : Nat} (valid : n.isValidChar) : (Char.ofNat n).toNat = n := by
  rw [Char.ofNat, dif_pos valid]
  rfl

section Pieces

variable {j k l m : Nat} (second : k < 0x40) (third : l < 0x40) (fourth : m < 0x40)

include second in
theorem encodeChar_two (least : 2 ≤ j) (most : j < 0x20) :
    encodeChar (Char.ofNat (j * 0x40 + k)) =
      [UInt8.ofNat (0xC0 + j), UInt8.ofNat (0x80 + k)] := by
  rw [encodeChar, toNat_scalar (.inl (by omega)), if_neg (by omega), if_pos (by omega)]
  congr 4 <;> omega

include second third in
theorem encodeChar_three (least : 0x800 ≤ (j * 0x40 + k) * 0x40 + l) (most : j < 0x10)
    (valid : ((j * 0x40 + k) * 0x40 + l).isValidChar) :
    encodeChar (Char.ofNat ((j * 0x40 + k) * 0x40 + l)) =
      [UInt8.ofNat (0xE0 + j), UInt8.ofNat (0x80 + k), UInt8.ofNat (0x80 + l)] := by
  rw [encodeChar, toNat_scalar valid, if_neg (by omega), if_neg (by omega), if_pos (by omega)]
  congr 4 <;> omega

include second third fourth in
theorem encodeChar_four (least : 0x10000 ≤ ((j * 0x40 + k) * 0x40 + l) * 0x40 + m)
    (valid : (((j * 0x40 + k) * 0x40 + l) * 0x40 + m).isValidChar) :
    encodeChar (Char.ofNat (((j * 0x40 + k) * 0x40 + l) * 0x40 + m)) =
      [UInt8.ofNat (0xF0 + j), UInt8.ofNat (0x80 + k), UInt8.ofNat (0x80 + l),
        UInt8.ofNat (0x80 + m)] := by
  rw [encodeChar, toNat_scalar valid, if_neg (by omega), if_neg (by omega), if_neg (by omega)]
  congr 5 <;> omega

end Pieces

/-- The bytes start with the encoding of the first character, and the others are read behind it. -/
def LeadsWith (bytes : List UInt8) (text : List Char) : Prop :=
  ∃ c more rest, text = c :: more ∧ bytes = encodeChar c ++ rest ∧
    units .start rest = more.map some

theorem leads_with {n : Nat} {rest : List UInt8} (written : bytes = encodeChar (Char.ofNat n) ++ rest)
    (read : some (Char.ofNat n) :: units .start rest = text.map some) : LeadsWith bytes text := by
  obtain ⟨c, more, rfl, first, others⟩ := List.map_eq_cons_iff.mp read.symm
  obtain rfl := Option.some.inj first
  exact ⟨_, more, rest, rfl, written, others.symm⟩

theorem leads_with_two {j : Nat} (least : 2 ≤ j) (most : j < 0x20)
    (read : units (.inside 0 0x80 0xBF j) bytes = text.map some) :
    LeadsWith (UInt8.ofNat (0xC0 + j) :: bytes) text := by
  obtain ⟨k, rest, second, low, high, rfl⟩ := exists_continuation (by decide) (by decide) read
  rw [units_last low high second] at read
  exact leads_with (by rw [encodeChar_two second least most]; rfl) read

theorem leads_with_three {j : Nat} (most : j < 0x10)
    (read : units (.inside 1 (if j = 0 then 0xA0 else 0x80) (if j = 0xD then 0x9F else 0xBF) j)
      bytes = text.map some) : LeadsWith (UInt8.ofNat (0xE0 + j) :: bytes) text := by
  obtain ⟨k, rest, second, low, high, rfl⟩ :=
    exists_continuation (by split <;> decide) (by split <;> decide) read
  rw [units_inside low high second] at read
  obtain ⟨l, rest, third, low', high', rfl⟩ := exists_continuation (by decide) (by decide) read
  rw [units_last low' high' third] at read
  have least : 0x800 ≤ (j * 0x40 + k) * 0x40 + l := by split at low <;> omega
  have valid : ((j * 0x40 + k) * 0x40 + l).isValidChar := by
    unfold Nat.isValidChar
    split at high <;> omega
  exact leads_with (by rw [encodeChar_three second third least most valid]; rfl) read

theorem leads_with_four {j : Nat} (most : j < 5)
    (read : units (.inside 2 (if j = 0 then 0x90 else 0x80) (if j = 4 then 0x8F else 0xBF) j)
      bytes = text.map some) : LeadsWith (UInt8.ofNat (0xF0 + j) :: bytes) text := by
  obtain ⟨k, rest, second, low, high, rfl⟩ :=
    exists_continuation (by split <;> decide) (by split <;> decide) read
  rw [units_inside low high second] at read
  obtain ⟨l, rest, third, low', high', rfl⟩ := exists_continuation (by decide) (by decide) read
  rw [units_inside low' high' third] at read
  obtain ⟨m, rest, fourth, low'', high'', rfl⟩ := exists_continuation (by decide) (by decide) read
  rw [units_last low'' high'' fourth] at read
  have least : 0x10000 ≤ ((j * 0x40 + k) * 0x40 + l) * 0x40 + m := by split at low <;> omega
  have valid : (((j * 0x40 + k) * 0x40 + l) * 0x40 + m).isValidChar :=
    .inr ⟨by omega, by split at high <;> omega⟩
  exact leads_with (by rw [encodeChar_four second third fourth least valid]; rfl) read

theorem exists_character {b : UInt8} (read : units .start (b :: bytes) = text.map some) :
    LeadsWith (b :: bytes) text := by
  have small := b.toNat_lt
  have same : b = UInt8.ofNat b.toNat := UInt8.ofNat_toNat.symm
  generalize b.toNat = n at small same
  subst same
  by_cases ascii : n < 0x80
  · have stepped : step n .start = ([some (Char.ofNat n)], .start) := by
      rw [step, enter, if_pos ascii]
    rw [units_step small stepped] at read
    refine leads_with ?_ read
    rw [encodeChar, toNat_scalar (.inl (by omega)), if_pos ascii]
    rfl
  cases lead : lead? n with
  | none =>
    have stepped : step n .start = ([none], .start) := by
      rw [step, enter, if_neg ascii, lead]
    rw [units_step small stepped] at read
    have refused : none ∈ text.map some := by simp [← read]
    simp at refused
  | some state =>
    rw [units_lead (by omega) small lead] at read
    obtain ⟨j, least, most, rfl, rfl⟩ | ⟨j, most, rfl, rfl⟩ | ⟨j, most, rfl, rfl⟩ := lead_cases lead
    · exact leads_with_two least most read
    · exact leads_with_three most read
    · exact leads_with_four most read

/-- What is read without an ill-formed sequence is the encoding of the characters. -/
theorem eq_encodeChars (read : units .start bytes = text.map some) : bytes = encodeChars text := by
  induction text generalizing bytes with
  | nil =>
    cases bytes with
    | nil => rfl
    | cons b bytes =>
      obtain ⟨c, more, rest, same, -⟩ := exists_character read
      contradiction
  | cons c text ih =>
    cases bytes with
    | nil => contradiction
    | cons b bytes =>
      obtain ⟨_, _, rest, ⟨⟩, written, read⟩ := exists_character read
      rw [written, encodeChars_cons, ← ih read]

theorem decode?_eq_some_iff {text : String} : decode? bytes = some text ↔ bytes = encode text := by
  constructor
  · intro decoded
    obtain ⟨chars, all, rfl⟩ := Option.map_eq_some_iff.mp decoded
    rw [encode, String.toList_ofList]
    exact eq_encodeChars (mapM_id_eq_some_iff.mp all)
  · rintro rfl
    rw [encode, decode?_encodeChars, String.ofList_toList]

end Reading

end MatrixSession.Utf8
