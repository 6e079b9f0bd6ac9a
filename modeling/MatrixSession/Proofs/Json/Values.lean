import Mathlib.Data.List.Forall2
import MatrixSession.Proofs.Json.Numbers

/-!
Values. A reader of arrays or objects takes what the grammar lists if the readers of the items do, and
passing over a value takes the whole value, however deep it is.
-/
namespace MatrixSession.Json

open Utf8

variable {α : Type}

/-- The reader takes exactly the text, whatever stands behind the delimiter after it. -/
def Reads (reader : Reader α) (text : List Char) (result : α) : Prop :=
  ∀ rest, Delimited rest → reader (encodeChars text ++ rest) = some (result, rest)

/-- A text with a first byte that is neither a blank nor closes anything. -/
def Opens (text : List Char) : Prop :=
  ∃ b more, encodeChars text = b :: more ∧ isBlankByte b = false ∧ b ≠ 0x5D ∧ b ≠ 0x7D

section Blanks

theorem blank_nil : Blank [] := by
  intro c none
  contradiction

theorem blank_byte {c : Char} (blank : c ∈ [' ', '\n', '\r', '\t']) :
    ∃ b, encodeChar c = [b] ∧ isBlankByte b = true := by
  simp only [List.mem_cons, List.not_mem_nil, or_false] at blank
  obtain rfl | rfl | rfl | rfl := blank <;> exact ⟨_, rfl, rfl⟩

theorem skipBlanks_blank {blank : List Char} (all : Blank blank) (rest : List UInt8) :
    skipBlanks (encodeChars blank ++ rest) = skipBlanks rest := by
  induction blank with
  | nil => rfl
  | cons c blank ih =>
    obtain ⟨b, encoded, blankByte⟩ := blank_byte (all c List.mem_cons_self)
    have shorter := ih fun d mem => all d (List.mem_cons_of_mem c mem)
    rw [← shorter, encodeChars_cons, encoded]
    exact List.dropWhile_cons_of_pos blankByte

theorem skipBlanks_solid {b : UInt8} (solid : isBlankByte b = false) (rest : List UInt8) :
    skipBlanks (b :: rest) = b :: rest :=
  List.dropWhile_cons_of_neg (by simp [solid])

theorem skipBlanks_opens {text : List Char} (opens : Opens text) (rest : List UInt8) :
    skipBlanks (encodeChars text ++ rest) = encodeChars text ++ rest := by
  obtain ⟨b, more, encoded, solid, -⟩ := opens
  rw [encoded]
  exact skipBlanks_solid solid _

theorem delimited_solid {b : UInt8} (closes : b = 0x2C ∨ b = 0x5D ∨ b = 0x7D) (rest : List UInt8) :
    Delimited (b :: rest) := by
  rintro _ ⟨⟩
  exact .inr closes

theorem delimited_blank {blank : List Char} (all : Blank blank) {rest : List UInt8}
    (delimited : Delimited rest) : Delimited (encodeChars blank ++ rest) := by
  cases blank with
  | nil => exact delimited
  | cons c blank =>
    obtain ⟨b, encoded, blankByte⟩ := blank_byte (all c List.mem_cons_self)
    rw [encodeChars_cons, encoded]
    rintro _ ⟨⟩
    exact .inl blankByte

end Blanks

section Lists

variable {item : Reader α} {closing : UInt8}

theorem Separated.length_le {texts : List (List Char)} {text : List Char}
    (separated : Separated texts text) : texts.length ≤ text.length + 1 := by
  induction separated with
  | one => simp
  | more blank blank' separated ih => simp; omega

theorem item_between {before text after : List Char} {result : α} (blank : Blank before)
    (blank' : Blank after) (opens : Opens text) (reads : Reads item text result) {next : UInt8}
    (closes : next = 0x2C ∨ next = 0x5D ∨ next = 0x7D) (rest : List UInt8) :
    item (skipBlanks (encodeChars (before ++ text ++ after) ++ next :: rest)) =
        some (result, encodeChars after ++ next :: rest) ∧
      skipBlanks (encodeChars after ++ next :: rest) = next :: rest := by
  constructor
  · rw [encodeChars_append, encodeChars_append, List.append_assoc, List.append_assoc,
      skipBlanks_blank blank, skipBlanks_opens opens]
    exact reads _ (delimited_blank blank' (delimited_solid closes rest))
  · rw [skipBlanks_blank blank']
    refine skipBlanks_solid ?_ rest
    obtain rfl | rfl | rfl := closes <;> rfl

/-- A reader of separated items needs no more fuel than there are items. -/
theorem someItems_separated {texts : List (List Char)} {text : List Char} {results : List α}
    (separated : Separated texts text)
    (each : List.Forall₂ (fun text result => Opens text ∧ Reads item text result) texts results)
    (closes : closing = 0x5D ∨ closing = 0x7D) {fuel : Nat} (enough : texts.length ≤ fuel)
    (rest : List UInt8) :
    someItems closing item fuel (encodeChars text ++ closing :: rest) = some (results, rest) := by
  induction separated generalizing results fuel with
  | one blank blank' =>
    obtain _ | ⟨⟨opens, reads⟩, ⟨⟩⟩ := each
    obtain ⟨read, behind⟩ := item_between blank blank' opens reads (.inr closes) rest
    obtain ⟨fuel, rfl⟩ := Nat.exists_eq_add_of_le' enough
    have last : closing ≠ 0x2C := by
      rintro rfl
      obtain h | h := closes <;> contradiction
    simp only [List.length_singleton, someItems, read, Option.bind_eq_bind, Option.bind_some, behind,
      if_neg last, if_true]
  | @more before text after more texts blank blank' separated ih =>
    obtain _ | ⟨⟨opens, reads⟩, others⟩ := each
    obtain ⟨read, behind⟩ := item_between blank blank' opens reads (.inl rfl)
      (encodeChars more ++ closing :: rest)
    obtain ⟨fuel, rfl⟩ := Nat.exists_eq_add_of_le' enough
    have comma : encodeChar ',' = [0x2C] := rfl
    have tail : someItems closing item (fuel + texts.length) _ = _ := ih others (by omega)
    rw [encodeChars_append, List.append_assoc, encodeChars_cons, comma, List.singleton_append,
      List.cons_append]
    simp only [List.length_cons, ← Nat.add_assoc, someItems, read, Option.bind_eq_bind,
      Option.bind_some, behind, tail]
    rfl

theorem Separated.trimmed {texts : List (List Char)} {text : List Char}
    (separated : Separated texts text) :
    ∃ blank first others more, Blank blank ∧ texts = first :: others ∧
      text = blank ++ (first ++ more) ∧ Separated texts (first ++ more) := by
  cases separated with
  | @one before text after blank blank' =>
    refine ⟨before, text, [], after, blank, rfl, by simp, ?_⟩
    exact .one blank_nil blank'
  | @more before text after more texts blank blank' separated =>
    refine ⟨before, text, texts, after ++ ',' :: more, blank, rfl, by simp, ?_⟩
    rw [← List.append_assoc]
    exact .more blank_nil blank' separated

theorem length_le_encodeChars (text : List Char) : text.length ≤ (encodeChars text).length := by
  induction text with
  | nil => simp
  | cons c text ih =>
    have some : 1 ≤ (encodeChar c).length := by
      simp only [encodeChar]
      split_ifs <;> simp
    simp only [encodeChars_cons, List.length_append, List.length_cons]
    omega

theorem items_listed {texts : List (List Char)} {text : List Char} {results : List α}
    (listed : Listed texts text)
    (each : List.Forall₂ (fun text result => Opens text ∧ Reads item text result) texts results)
    (closes : closing = 0x5D ∨ closing = 0x7D) (rest : List UInt8) :
    items closing item (encodeChars text ++ closing :: rest) = some (results, rest) := by
  cases listed with
  | none blank =>
    cases each
    have solid : isBlankByte closing = false := by obtain rfl | rfl := closes <;> rfl
    simp only [items, skipBlanks_blank blank, skipBlanks_solid solid, if_true]
  | some separated =>
    obtain ⟨blank, first, others, more, isBlank, rfl, rfl, trimmed⟩ := separated.trimmed
    have opens : Opens first := by
      obtain _ | ⟨⟨opens, -⟩, -⟩ := each
      exact opens
    have enough : (first :: others).length ≤
        (encodeChars (first ++ more) ++ closing :: rest).length := by
      have items := trimmed.length_le
      have bytes := length_le_encodeChars (first ++ more)
      simp only [List.length_append, List.length_cons] at items bytes ⊢
      omega
    have taken := someItems_separated trimmed each closes enough rest
    have start : skipBlanks (encodeChars (blank ++ (first ++ more)) ++ closing :: rest) =
        encodeChars (first ++ more) ++ closing :: rest := by
      rw [encodeChars_append, List.append_assoc, skipBlanks_blank isBlank, encodeChars_append,
        List.append_assoc, skipBlanks_opens opens]
    obtain ⟨b, tail, encoded, -, noBracket, noBrace⟩ := opens
    have different : b ≠ closing := by obtain rfl | rfl := closes <;> assumption
    rw [items, start]
    simp only [encodeChars_append, encoded, List.cons_append] at taken ⊢
    rw [if_neg different, taken]

end Lists

section Openings

theorem opens_cons {c : Char} {b : UInt8} (encoded : encodeChar c = [b])
    (solid : isBlankByte b = false ∧ b ≠ 0x5D ∧ b ≠ 0x7D) (more : List Char) : Opens (c :: more) :=
  ⟨b, encodeChars more, by rw [encodeChars_cons, encoded, List.singleton_append], solid⟩

theorem digit_solid {b : UInt8} (digit : isDigitByte b = true) :
    isBlankByte b = false ∧ b ≠ 0x5D ∧ b ≠ 0x7D := by
  refine ⟨?_, ?_, ?_⟩
  · by_contra blank
    simp only [isBlankByte, Bool.not_eq_false, Bool.or_eq_true, beq_iff_eq, or_assoc] at blank
    obtain rfl | rfl | rfl | rfl := blank <;> contradiction
  · rintro rfl
    contradiction
  · rintro rfl
    contradiction

theorem IsNumber.start {text : List Char} (number : IsNumber text) :
    ∃ b more, encodeChars text = b :: more ∧ (isDigitByte b = true ∨ b = 0x2D) := by
  obtain @⟨sign, whole, fraction, exponent, signed, before, after, power⟩ := number
  simp only [List.mem_cons, List.not_mem_nil, or_false] at signed
  obtain rfl | rfl := signed
  · obtain ⟨b, more, encoded, digit, -⟩ := numeral_start before.1
    refine ⟨b, more ++ encodeChars (fraction ++ exponent), ?_, .inl digit⟩
    simp [encoded]
  · exact ⟨0x2D, encodeChars (whole ++ fraction ++ exponent), rfl, .inr rfl⟩

theorem IsNumber.opens {text : List Char} (number : IsNumber text) : Opens text := by
  obtain ⟨b, more, encoded, digit | rfl⟩ := number.start
  · exact ⟨b, more, encoded, digit_solid digit⟩
  · exact ⟨0x2D, more, encoded, by decide⟩

theorem Quoted.opens {text : List Char} {content : Content} (quoted : Quoted text content) :
    Opens text := by
  obtain ⟨spelled⟩ := quoted
  exact opens_cons rfl (by decide) _

theorem Denotes.opens {text : List Char} {tree : Tree} (denotes : Denotes text tree) :
    Opens text := by
  cases denotes with
  | number number => exact number.opens
  | string quoted => exact quoted.opens
  | null | yes | no | array | object => exact opens_cons rfl (by decide) _

theorem Member.opens {m : Member} (quoted : Quoted m.keyText m.key) : Opens m.text := by
  obtain ⟨b, more, encoded, solid⟩ := quoted.opens
  refine ⟨b, more ++ encodeChars (m.before ++ ':' :: m.after ++ m.valueText), ?_, solid⟩
  simp [Member.text, encoded]

end Openings

section Members

theorem encodeChars_member (m : Member) (rest : List UInt8) :
    encodeChars m.text ++ rest = encodeChars m.keyText ++ (encodeChars m.before ++
      0x3A :: (encodeChars m.after ++ (encodeChars m.valueText ++ rest))) := by
  have colon : encodeChar ':' = [0x3A] := rfl
  simp [Member.text, colon]

theorem member_text {m : Member} {key : String} {value : String → Reader α} {result : α}
    (quoted : Quoted m.keyText (.ofString key)) (before : Blank m.before) (after : Blank m.after)
    (opens : Opens m.valueText) (reads : Reads (value key) m.valueText result) :
    Reads (member value) m.text (key, result) := by
  intro rest delimited
  have colon (more : List UInt8) : skipBlanks (0x3A :: more) = 0x3A :: more :=
    skipBlanks_solid rfl more
  rw [encodeChars_member, member]
  simp only [string_quoted quoted, Option.bind_eq_bind, Option.bind_some, skipBlanks_blank before,
    colon, skipBlanks_blank after, skipBlanks_opens opens, reads rest delimited]

theorem skipMember_text {m : Member} {value : Reader Unit} (quoted : Quoted m.keyText m.key)
    (before : Blank m.before) (after : Blank m.after) (opens : Opens m.valueText)
    (reads : Reads value m.valueText ()) : Reads (skipWithin.skipMember value) m.text () := by
  intro rest delimited
  have colon (more : List UInt8) : skipBlanks (0x3A :: more) = 0x3A :: more :=
    skipBlanks_solid rfl more
  rw [encodeChars_member]
  generalize m.key = content at quoted
  generalize m.keyText = keyText at quoted
  obtain ⟨spelled⟩ := quoted
  rw [encodeChars_between (a := 0x22) (b := 0x22) rfl rfl]
  simp only [skipWithin.skipMember, skipString_closed spelled, Option.bind_eq_bind,
    Option.bind_some, skipBlanks_blank before, colon, skipBlanks_blank after,
    skipBlanks_opens opens, reads rest delimited]

end Members

section Passing

theorem skipWithin_string (depth : Nat) (rest : List UInt8) :
    skipWithin depth (0x22 :: rest) = (skipString rest).map fun rest => ((), rest) := by
  cases depth <;> rfl

theorem skipWithin_number (depth : Nat) {b : UInt8} (number : isDigitByte b = true ∨ b = 0x2D)
    (rest : List UInt8) :
    skipWithin depth (b :: rest) = (numeral (b :: rest)).map fun (_, rest) => ((), rest) := by
  have other : b ∉ [0x22, 0x5B, 0x7B, 0x6E, 0x74, 0x66] := by
    intro mem
    simp only [List.mem_cons, List.not_mem_nil, or_false] at mem
    obtain rfl | rfl | rfl | rfl | rfl | rfl := mem <;> revert number <;> decide
  simp only [List.mem_cons, List.not_mem_nil, or_false, not_or] at other
  obtain ⟨quote, bracket, brace, n, t, f⟩ := other
  cases depth <;> simp [skipWithin, quote, bracket, brace, n, t, f]

theorem Separated.item_length {texts : List (List Char)} {text : List Char}
    (separated : Separated texts text) : ∀ item ∈ texts, item.length ≤ text.length := by
  intro item mem
  induction separated with
  | one blank blank' =>
    obtain rfl := List.mem_singleton.mp mem
    simp only [List.length_append]
    omega
  | more blank blank' separated ih =>
    simp only [List.length_append, List.length_cons]
    obtain rfl | mem := List.mem_cons.mp mem
    · omega
    · have shorter := ih mem
      omega

theorem Listed.item_length {texts : List (List Char)} {text : List Char}
    (listed : Listed texts text) : ∀ item ∈ texts, item.length ≤ text.length := by
  cases listed with
  | none blank =>
    intro item none
    contradiction
  | some separated => exact separated.item_length

theorem items_passed {ι : Type} {entries : List ι} {written : ι → List Char} {inner : List Char}
    {pass : Reader Unit} {closing : UInt8} (listed : Listed (entries.map written) inner)
    (each : ∀ entry ∈ entries, Opens (written entry) ∧ Reads pass (written entry) ())
    (closes : closing = 0x5D ∨ closing = 0x7D) (rest : List UInt8) :
    items closing pass (encodeChars inner ++ closing :: rest) =
      some (entries.map fun _ => (), rest) := by
  refine items_listed listed ?_ closes rest
  rw [List.forall₂_map_left_iff, List.forall₂_map_right_iff, List.forall₂_same]
  exact each

theorem skipWithin_denotes {text : List Char} {tree : Tree} (denotes : Denotes text tree)
    {depth : Nat} (deep : text.length ≤ depth) : Reads (skipWithin depth) text () := by
  induction denotes generalizing depth with
  | null | yes | no =>
    intro rest delimited
    cases depth <;> rfl
  | number number =>
    intro rest delimited
    obtain ⟨b, more, encoded, start⟩ := number.start
    obtain ⟨n, read⟩ := numeral_number number delimited
    rw [encoded, List.cons_append] at read ⊢
    rw [skipWithin_number depth start, read]
    rfl
  | string quoted =>
    intro rest delimited
    obtain ⟨spelled⟩ := quoted
    rw [encodeChars_between (a := 0x22) (b := 0x22) rfl rfl, skipWithin_string, skipString_closed spelled]
    rfl
  | @array entries inner each listed ih =>
    intro rest delimited
    simp only [List.length_append, List.length_cons] at deep
    obtain ⟨depth, rfl⟩ := Nat.exists_eq_add_of_le' (show 1 ≤ depth by omega)
    have passed := items_passed listed (fun entry mem => ⟨(each entry mem).opens, ih entry mem
      (Nat.le_trans (listed.item_length _ (List.mem_map_of_mem mem)) (by omega : _ ≤ depth))⟩)
      (.inl rfl) rest
    rw [encodeChars_between (a := 0x5B) (b := 0x5D) rfl rfl]
    simp only [skipWithin]
    rw [passed]
    rfl
  | @object members inner keys values listed ih =>
    intro rest delimited
    simp only [List.length_append, List.length_cons] at deep
    obtain ⟨depth, rfl⟩ := Nat.exists_eq_add_of_le' (show 1 ≤ depth by omega)
    have within (m : Member) (mem : m ∈ members) : m.valueText.length ≤ depth := by
      have shorter := listed.item_length _ (List.mem_map_of_mem mem)
      simp only [Member.text, List.length_append, List.length_cons] at shorter
      omega
    have passed := items_passed listed (fun m mem =>
      have ⟨quoted, before, after⟩ := keys m mem
      ⟨Member.opens quoted, skipMember_text quoted before after (values m mem).opens
        (ih m mem (within m mem))⟩) (.inr rfl) rest
    rw [encodeChars_between (a := 0x7B) (b := 0x7D) rfl rfl]
    simp only [skipWithin]
    rw [passed]
    rfl

/-- Any value is passed over, whatever its depth. -/
theorem skip_denotes {text : List Char} {tree : Tree} (denotes : Denotes text tree) :
    Reads skip text () := by
  intro rest delimited
  have long := length_le_encodeChars text
  refine skipWithin_denotes denotes ?_ rest delimited
  rw [List.length_append]
  omega

end Passing

section Typed

theorem string_denotes {text : List Char} {s : String} (denotes : Denotes text (.text s)) :
    Reads string text s := by
  intro rest delimited
  cases denotes with
  | string quoted => exact string_quoted quoted rest

theorem bool_denotes {text : List Char} {b : Bool} (denotes : Denotes text (.bool b)) :
    Reads bool text b := by
  intro rest delimited
  cases denotes <;> rfl

theorem array_denotes {item : Reader α} {trees : List Tree} {results : List α}
    (each : List.Forall₂ (fun tree result => ∀ text, Denotes text tree → Reads item text result)
      trees results)
    {text : List Char} (denotes : Denotes text (.array trees)) : Reads (array item) text results := by
  intro rest delimited
  cases denotes with
  | @array entries inner denote listed =>
    rw [encodeChars_between (a := 0x5B) (b := 0x5D) rfl rfl]
    refine items_listed listed ?_ (.inl rfl) rest
    rw [List.forall₂_map_left_iff] at each ⊢
    refine ((List.forall₂_and_left _ _).mpr ⟨denote, each⟩).imp ?_
    intro entry result ⟨denotes, reads⟩
    exact ⟨denotes.opens, reads entry.1 denotes⟩

theorem object_denotes {value : String → Reader α} {members : List (Content × Tree)}
    {results : List (String × α)}
    (each : List.Forall₂ (fun m result => m.1 = .ofString result.1 ∧
      ∀ text, Denotes text m.2 → Reads (value result.1) text result.2) members results)
    {text : List Char} (denotes : Denotes text (.object members)) :
    Reads (object value) text results := by
  intro rest delimited
  cases denotes with
  | @object written inner keys values listed =>
    rw [encodeChars_between (a := 0x7B) (b := 0x7D) rfl rfl]
    refine items_listed listed ?_ (.inr rfl) rest
    rw [List.forall₂_map_left_iff] at each ⊢
    refine ((List.forall₂_and_left _ _).mpr
      ⟨fun m mem => And.intro (keys m mem) (values m mem), each⟩).imp ?_
    intro m (key, result) ⟨⟨⟨quoted, before, after⟩, denotes⟩, same, reads⟩
    exact ⟨Member.opens quoted,
      member_text (same ▸ quoted) before after denotes.opens (reads m.valueText denotes)⟩

theorem whole_document {reader : Reader α} {tree : Tree} {result : α}
    (reads : ∀ text, Denotes text tree → Reads reader text result)
    {text : List Char} (document : Document text tree) :
    whole? reader (encodeChars text) = some result := by
  obtain @⟨before, written, after, _, blank, denotes, blank'⟩ := document
  have ends : Delimited [] := by
    intro b none
    contradiction
  have taken := reads written denotes _ (delimited_blank blank' ends)
  have remaining := skipBlanks_blank blank' []
  rw [List.append_nil] at taken remaining
  have start : skipBlanks (encodeChars (before ++ written ++ after)) =
      encodeChars written ++ encodeChars after := by
    rw [encodeChars_append, encodeChars_append, List.append_assoc, skipBlanks_blank blank,
      skipBlanks_opens denotes.opens]
  simp only [whole?, start, taken, remaining, Option.bind_eq_bind, Option.bind_some]
  rfl

end Typed

end MatrixSession.Json
