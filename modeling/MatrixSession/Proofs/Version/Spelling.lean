import MatrixSession.Proofs.Text.Decimal
import MatrixSession.Version

/-!
How versions are spelled. Each of the three forms has a grammar, two numerals with a sign between them
and maybe a letter in front, and a text is read as a version just if it is written so. What is printed in
a form is read back from it, and so a form tells all versions apart.
-/
namespace MatrixSession.ApiVersion

def Spells (text : List Char) (n : UInt32) : Prop :=
  Decimal.IsNumeral text ∧ Decimal.value text = n.toNat

def Identifies (text : String) (v : ApiVersion) : Prop :=
  ∃ major minor, text.toList = 'v' :: (major ++ 'p' :: minor) ∧
    Spells major v.major ∧ Spells minor v.minor

variable {text : String} {v w : ApiVersion}

theorem Spells.not_mem {digits : List Char} {n : UInt32} (spells : Spells digits n) {c : Char}
    (other : c.isDigit = false) : c ∉ digits := by
  intro mem
  exact Bool.false_ne_true (other.symm.trans (spells.1.2 c mem))

theorem read_eq_some_iff {digits : List Char} {n : UInt32} :
    Decimal.read? UInt32.size digits = some n.toNat ↔ Spells digits n := by
  rw [Decimal.read?_eq_some_iff, Spells]
  constructor
  · rintro ⟨numeral, value, -⟩
    exact ⟨numeral, value⟩
  · rintro ⟨numeral, value⟩
    exact ⟨numeral, value, n.toNat_lt⟩

theorem ofNumerals?_eq_some_iff {major minor : List Char} :
    ofNumerals? major minor = some v ↔ Spells major v.major ∧ Spells minor v.minor := by
  rw [← read_eq_some_iff, ← read_eq_some_iff]
  simp only [ofNumerals?, Option.bind_eq_bind, Option.bind_eq_some_iff, Option.some.injEq]
  constructor
  · rintro ⟨m, first, n, second, rfl⟩
    have small := (Decimal.read?_eq_some_iff.mp first).2.2
    have small' := (Decimal.read?_eq_some_iff.mp second).2.2
    dsimp only
    rw [UInt32.toNat_ofNat_of_lt' small, UInt32.toNat_ofNat_of_lt' small']
    exact ⟨first, second⟩
  · rintro ⟨first, second⟩
    refine ⟨_, first, _, second, ?_⟩
    rw [UInt32.ofNat_toNat, UInt32.ofNat_toNat]

def Numerals (sep : Char) (text : List Char) (v : ApiVersion) : Prop :=
  ∃ major minor, text = major ++ sep :: minor ∧ Decimal.Denotes major v.major.toNat ∧
    Decimal.Denotes minor v.minor.toNat

theorem spells_iff {digits : List Char} {n : UInt32} :
    Spells digits n ↔ Decimal.Denotes digits n.toNat := Decimal.denotes_iff.symm

theorem cut_eq_some_iff {sep : Char} (other : sep.isDigit = false) (text : List Char)
    (v : ApiVersion) :
    ((Text.splitFirst? sep text).bind fun cut => ofNumerals? cut.1 cut.2) = some v ↔
      Numerals sep text v := by
  constructor
  · intro read
    obtain ⟨⟨major, minor⟩, cut, numerals⟩ := Option.bind_eq_some_iff.mp read
    obtain ⟨whole, -⟩ := Text.splitFirst?_eq_some_iff.mp cut
    obtain ⟨first, second⟩ := ofNumerals?_eq_some_iff.mp numerals
    exact ⟨major, minor, whole, spells_iff.mp first, spells_iff.mp second⟩
  · intro ⟨major, minor, whole, first, second⟩
    have first := spells_iff.mpr first
    have cut : Text.splitFirst? sep text = some (major, minor) :=
      Text.splitFirst?_eq_some_iff.mpr ⟨whole, first.not_mem other⟩
    rw [cut]
    exact ofNumerals?_eq_some_iff.mpr ⟨first, spells_iff.mpr second⟩

theorem Numerals.not_letter {sep : Char} {rest : List Char} (other : sep ≠ 'v') :
    ¬Numerals sep ('v' :: rest) v := by
  rintro ⟨major, minor, whole, first, -⟩
  cases major with
  | nil => exact other (List.cons.inj whole).1.symm
  | cons c major =>
    have digit := first.digits c List.mem_cons_self
    rw [← (List.cons.inj whole).1] at digit
    contradiction

theorem ofIdentifier?_iff : ofIdentifier? text = some v ↔
    ∃ rest, text.toList = 'v' :: rest ∧ Numerals 'p' rest v := by
  unfold ofIdentifier?
  split
  · rename_i rest start
    simpa [start] using cut_eq_some_iff (by decide) rest v
  · rename_i other
    simp only [reduceCtorEq, false_iff]
    rintro ⟨rest, start, -⟩
    exact other rest start

theorem ofNumerals?_zero_iff {digits : List Char} : ofNumerals? digits ['0'] = some v ↔
    Decimal.Denotes digits v.major.toNat ∧ v.minor = 0 := by
  have zero : Spells ['0'] v.minor ↔ v.minor = 0 := by
    constructor
    · intro spells
      exact UInt32.toNat_inj.mp spells.2.symm
    · intro none
      rw [none]
      exact ⟨by decide, rfl⟩
  rw [ofNumerals?_eq_some_iff, spells_iff, zero]

theorem ofAdvertised?_iff : ofAdvertised? text = some v ↔ ∃ rest, text.toList = 'v' :: rest ∧
    (Numerals '.' rest v ∨ Decimal.Denotes rest v.major.toNat ∧ v.minor = 0) := by
  unfold ofAdvertised?
  split
  · rename_i rest start
    have reads : _ ↔ Numerals '.' rest v := cut_eq_some_iff (by decide) rest v
    simp only [start, List.cons.injEq, true_and, exists_eq_left', ← reads]
    cases cut : Text.splitFirst? '.' rest with
    | none => simp [ofNumerals?_zero_iff]
    | some parts =>
      have point : '.' ∈ rest := by simp [(Text.splitFirst?_eq_some_iff.mp cut).1]
      have whole : ¬Decimal.Denotes rest v.major.toNat := by
        intro denotes
        exact absurd (denotes.digits '.' point) (by decide)
      simp [whole]
  · rename_i other
    simp only [reduceCtorEq, false_iff]
    rintro ⟨rest, start, -⟩
    exact other rest start

theorem ofText?_iff : ofText? text = some v ↔ Numerals '.' text.toList v ∨
    ∃ rest, text.toList = 'v' :: rest ∧ Numerals '.' rest v := by
  unfold ofText?
  split
  · rename_i rest start
    have letter : ¬Numerals '.' ('v' :: rest) v := Numerals.not_letter (by decide)
    simpa [start, letter] using cut_eq_some_iff (by decide) rest v
  · rename_i other
    have bare : ¬∃ rest, text.toList = 'v' :: rest ∧ Numerals '.' rest v := by
      rintro ⟨rest, start, -⟩
      exact other rest start
    simpa [bare] using cut_eq_some_iff (by decide) text.toList v

theorem ofIdentifier?_eq_some_iff : ofIdentifier? text = some v ↔ Identifies text v := by
  rw [ofIdentifier?_iff, Identifies]
  simp only [Numerals, spells_iff]
  constructor
  · rintro ⟨_, start, major, minor, rfl, spelled⟩
    exact ⟨major, minor, start, spelled⟩
  · rintro ⟨major, minor, start, spelled⟩
    exact ⟨_, start, major, minor, rfl, spelled⟩

theorem Identifies.unique (one : Identifies text v) (two : Identifies text w) : v = w := by
  rw [← ofIdentifier?_eq_some_iff] at one two
  exact Option.some.inj (one.symm.trans two)

/-- A text is read as a version just if it is written as one: a catalog identifier with `p` between the
    numerals, an advertised version with a point or with the first numeral only, and a plain one with a
    point and maybe a letter in front. Numerals have any leading zeros, and fit 32 bits. -/
theorem read_just_if_spelled (text : String) (v : ApiVersion) :
    (ofIdentifier? text = some v ↔ ∃ rest, text.toList = 'v' :: rest ∧ Numerals 'p' rest v) ∧
    (ofAdvertised? text = some v ↔ ∃ rest, text.toList = 'v' :: rest ∧
      (Numerals '.' rest v ∨ Decimal.Denotes rest v.major.toNat ∧ v.minor = 0)) ∧
    (ofText? text = some v ↔ Numerals '.' text.toList v ∨
      ∃ rest, text.toList = 'v' :: rest ∧ Numerals '.' rest v) :=
  ⟨ofIdentifier?_iff, ofAdvertised?_iff, ofText?_iff⟩

example : ofIdentifier? "v4294967295p007" = some ⟨4294967295, 7⟩ ∧
    ofIdentifier? "v4294967296p7" = none := by decide +kernel

section Printing

theorem numerals_text (v : ApiVersion) : Numerals '.' v.text.toList v := by
  have written : v.text.toList = (Decimal.numeral v.major.toNat).toList ++
      '.' :: (Decimal.numeral v.minor.toNat).toList := by simp [ApiVersion.text]
  exact ⟨_, _, written, Decimal.denotes_numeral _, Decimal.denotes_numeral _⟩

theorem toList_marked (v : ApiVersion) : ("v" ++ v.text).toList = 'v' :: v.text.toList := by
  rw [String.toList_append]
  rfl

theorem read_identifier (v : ApiVersion) : ofIdentifier? v.identifier = some v := by
  have written : v.identifier.toList = 'v' :: ((Decimal.numeral v.major.toNat).toList ++
      'p' :: (Decimal.numeral v.minor.toNat).toList) := by simp [identifier]
  apply ofIdentifier?_iff.mpr
  exact ⟨_, written, _, _, rfl, Decimal.denotes_numeral _, Decimal.denotes_numeral _⟩

theorem read_text (v : ApiVersion) : ofText? v.text = some v :=
  ofText?_iff.mpr (.inl (numerals_text v))

theorem read_marked_text (v : ApiVersion) : ofText? ("v" ++ v.text) = some v :=
  ofText?_iff.mpr (.inr ⟨_, toList_marked v, numerals_text v⟩)

theorem read_advertised (v : ApiVersion) : ofAdvertised? ("v" ++ v.text) = some v :=
  ofAdvertised?_iff.mpr ⟨_, toList_marked v, .inl (numerals_text v)⟩

theorem ofText?_of_advertised (point : '.' ∈ text.toList) (read : ofAdvertised? text = some v) :
    ofText? text = some v := by
  obtain ⟨rest, start, spelled⟩ := ofAdvertised?_iff.mp read
  cases spelled with
  | inl numerals => exact ofText?_iff.mpr (.inr ⟨rest, start, numerals⟩)
  | inr bare =>
    have inside : '.' ∈ rest := by simpa [start] using point
    exact absurd (bare.1.digits '.' inside) (by decide)

/-- What is printed in a form is read back, so two versions are never printed alike. A text that was read
    can be printed anew in its form without a change of the version, and with a point an advertised
    version is read as a plain one too. -/
theorem forms_read_back :
    (∀ v : ApiVersion, ofIdentifier? v.identifier = some v ∧ ofText? v.text = some v ∧
      ofText? ("v" ++ v.text) = some v ∧ ofAdvertised? ("v" ++ v.text) = some v) ∧
    Function.Injective identifier ∧ Function.Injective ApiVersion.text ∧
    (∀ text, ((ofIdentifier? text).map identifier).bind ofIdentifier? = ofIdentifier? text ∧
      ((ofAdvertised? text).map ("v" ++ ·.text)).bind ofAdvertised? = ofAdvertised? text ∧
      ((ofText? text).map ApiVersion.text).bind ofText? = ofText? text) ∧
    ∀ text v, '.' ∈ text.toList → ofAdvertised? text = some v → ofText? text = some v := by
  refine ⟨?_, ?_, ?_, ?_, ?_⟩
  · intro v
    exact ⟨read_identifier v, read_text v, read_marked_text v, read_advertised v⟩
  · intro v w same
    have read := read_identifier v
    rw [same, read_identifier] at read
    exact (Option.some.inj read).symm
  · intro v w same
    have read := read_text v
    rw [same, read_text] at read
    exact (Option.some.inj read).symm
  · intro text
    refine ⟨?_, ?_, ?_⟩
    · cases ofIdentifier? text with
      | none => rfl
      | some v => exact read_identifier v
    · cases ofAdvertised? text with
      | none => rfl
      | some v => exact read_advertised v
    · cases ofText? text with
      | none => rfl
      | some v => exact read_text v
  · intro text v
    exact ofText?_of_advertised

theorem padded_form_read_back : '.' ∈ "v01.07".toList ∧ ofAdvertised? "v01.07" = some ⟨1, 7⟩ ∧
    ofText? "v01.07" = some ⟨1, 7⟩ ∧ ofText? (ApiVersion.text ⟨1, 7⟩) = some ⟨1, 7⟩ := by
  have point : '.' ∈ "v01.07".toList := by decide
  have read : ofAdvertised? "v01.07" = some ⟨1, 7⟩ := by decide +kernel
  obtain ⟨printed, -, -, -, plain⟩ := forms_read_back
  exact ⟨point, read, plain "v01.07" ⟨1, 7⟩ point read, (printed ⟨1, 7⟩).2.1⟩

end Printing

end MatrixSession.ApiVersion
