import Mathlib.Data.List.Count
import MatrixSession.Json.Printer
import MatrixSession.Proofs.Json.Values

/-!
Objects with named members. A reader that takes each member by its name takes the object, and what it
finds under a name is found as often as the name is written. Texts that are printed are read back.
-/
namespace MatrixSession.Json

open Utf8

section Names

theorem Content.ofString_injective : Function.Injective Content.ofString := by
  intro a b same
  exact String.toList_inj.mp (List.map_injective_iff.mpr (Option.some_injective Char) same)

def Named (members : List (Content × Tree)) (names : List String) : Prop :=
  List.Forall₂ (fun m name => m.1 = .ofString name) members names

variable {members : List (Content × Tree)} {names : List String}

theorem exists_names (named : ∀ m ∈ members, ∃ name, m.1 = .ofString name) :
    ∃ names, Named members names := by
  induction members with
  | nil => exact ⟨[], .nil⟩
  | cons m members ih =>
    obtain ⟨name, first⟩ := named m List.mem_cons_self
    obtain ⟨names, others⟩ := ih fun m' mem => named m' (List.mem_cons_of_mem m mem)
    exact ⟨name :: names, .cons first others⟩

theorem Named.count (named : Named members names) (name : String) :
    (members.map (·.1)).count (.ofString name) = names.count name := by
  have same : members.map (·.1) = names.map Content.ofString := by
    induction named with
    | nil => rfl
    | cons first others ih => rw [List.map_cons, List.map_cons, first, ih]
  rw [same, List.count_map_of_injective _ _ Content.ofString_injective]

theorem filterMap_count {α β : Type} {fieldAt : String → β} {read : β → Option α} {name : String}
    {found : α} (own : read (fieldAt name) = some found)
    (others : ∀ other, other ≠ name → read (fieldAt other) = none) (names : List String) :
    (names.map fieldAt).filterMap read = List.replicate (names.count name) found := by
  induction names with
  | nil => rfl
  | cons first names ih =>
    rw [List.map_cons]
    by_cases same : first = name
    · subst same
      rw [List.filterMap_cons_some own, List.count_cons_self, List.replicate_succ, ih]
    · rw [List.filterMap_cons_none (others first same), List.count_cons_of_ne same, ih]

theorem Named.object {β : Type} (named : Named members names) (field : String → Reader β)
    (fieldAt : String → β)
    (each : ∀ m ∈ members, ∀ name, m.1 = .ofString name →
      ∀ text, Denotes text m.2 → Reads (field name) text (fieldAt name))
    {text : List Char} (denotes : Denotes text (.object members)) :
    Reads (object field) text (names.map fun name => (name, fieldAt name)) := by
  refine object_denotes ?_ denotes
  rw [List.forall₂_map_right_iff]
  refine ((List.forall₂_and_left _ _).mpr ⟨each, named⟩).imp ?_
  intro m name ⟨reads, same⟩
  exact ⟨same, reads name same⟩

theorem Denotes.braced {text : List Char} (denotes : Denotes text (.object members)) :
    ∃ more, encodeChars text = 0x7B :: more := by
  cases denotes with
  | object keys values listed => exact ⟨_, rfl⟩

theorem Named.record {β γ : Type} (named : Named members names) {field : String → Reader β}
    {fieldAt : String → β} {reader : Reader γ} {make : List β → Option γ} {result : γ}
    (objects : ∀ more fields rest, Json.object field (0x7B :: more) = some (fields, rest) →
      reader (0x7B :: more) = (make (fields.map (·.2))).map fun made => (made, rest))
    (each : ∀ m ∈ members, ∀ name, m.1 = .ofString name →
      ∀ text, Denotes text m.2 → Reads (field name) text (fieldAt name))
    (made : make (names.map fieldAt) = some result) {text : List Char}
    (denotes : Denotes text (.object members)) : Reads reader text result := by
  intro rest delimited
  have read := named.object field fieldAt each denotes rest delimited
  have fields : (names.map fun name => (name, fieldAt name)).map (·.2) = names.map fieldAt := by
    rw [List.map_map]
    rfl
  obtain ⟨more, encoded⟩ := denotes.braced
  rw [encoded, List.cons_append] at read ⊢
  rw [objects _ _ _ read, fields, made, Option.map_some]

end Names

section Printing

theorem isHexDigit_lowerDigit {n : Nat} (small : n < 16) : IsHexDigit (Hex.lowerDigit n) n := by
  revert n
  unfold IsHexDigit
  decide

theorem escapedUnit_control {c : Char} (control : c < ' ') :
    EscapedUnit ['\\', 'u', '0', '0', Hex.lowerDigit (c.toNat / 16), Hex.lowerDigit (c.toNat % 16)]
      c.toNat := by
  have low : c.toNat < 32 := control
  refine .digits (isHexDigit_lowerDigit (n := 0) (by omega)) (isHexDigit_lowerDigit (n := 0) (by omega))
    (isHexDigit_lowerDigit ?_) (isHexDigit_lowerDigit ?_) ?_ <;> omega

theorem spells_escapedChar (c : Char) : Spells (escapedChar c) (some c) := by
  unfold escapedChar
  split_ifs with quote backslash backspace tab newline feed return_ control
  · exact .short (by simp [shortEscapes, quote])
  · exact .short (by simp [shortEscapes, backslash])
  · exact .short (by simp [shortEscapes, backspace])
  · exact .short (by simp [shortEscapes, tab])
  · exact .short (by simp [shortEscapes, newline])
  · exact .short (by simp [shortEscapes, feed])
  · exact .short (by simp [shortEscapes, return_])
  · exact .unit (escapedUnit_control control)
  · exact .plain (Nat.le_of_not_lt control) quote backslash

theorem quoted_stringChars (text : String) : Quoted (stringChars text) (.ofString text) := by
  have spelled (cs : List Char) : Spelled (cs.flatMap escapedChar) (cs.map some) := by
    induction cs with
    | nil => exact .nil
    | cons c cs ih => exact .cons (spells_escapedChar c) ih
  exact .quotes (spelled text.toList)

theorem separated_printed (first : List Char) (others : List (List Char)) :
    Separated (first :: others) (separated (first :: others)) := by
  induction others generalizing first with
  | nil => simpa [separated] using @Separated.one [] first [] blank_nil blank_nil
  | cons next others ih =>
    simpa [separated] using @Separated.more [] first [] _ _ blank_nil blank_nil (ih next)

theorem listed_printed (texts : List (List Char)) : Listed texts (separated texts) := by
  cases texts with
  | nil => exact .none blank_nil
  | cons first others => exact .some (separated_printed first others)

structure Member.Sound (m : Member) : Prop where
  quoted : Quoted m.keyText m.key
  blank : Blank m.before ∧ Blank m.after
  denotes : Denotes m.valueText m.value

theorem denotes_members {members : List Member} (sound : ∀ m ∈ members, m.Sound) :
    Denotes ('{' :: separated (members.map Member.text) ++ ['}'])
      (.object (members.map fun m => (m.key, m.value))) := by
  have keys : ∀ m ∈ members, Quoted m.keyText m.key ∧ Blank m.before ∧ Blank m.after := by
    intro m mem
    exact ⟨(sound m mem).quoted, (sound m mem).blank⟩
  exact .object keys (fun m mem => (sound m mem).denotes) (listed_printed (members.map Member.text))

theorem document_of_denotes {text : List Char} {tree : Tree} (denotes : Denotes text tree) :
    Document text tree := by
  simpa using Document.around blank_nil denotes blank_nil

theorem document_members {members : List Member} (sound : ∀ m ∈ members, m.Sound) :
    Document ('{' :: separated (members.map Member.text) ++ ['}'])
      (.object (members.map fun m => (m.key, m.value))) :=
  document_of_denotes (denotes_members sound)

def Member.printed (key : String) (value : Value) (tree : Tree) : Member :=
  ⟨.ofString key, stringChars key, [], [], tree, value.compactChars⟩

theorem Member.text_printed (key : String) (value : Value) (tree : Tree) :
    (Member.printed key value tree).text = stringChars key ++ ':' :: value.compactChars := by
  simp [printed, text]

theorem Member.sound_of_denotes (key : String) {value : Value} {tree : Tree}
    (denotes : Denotes value.compactChars tree) : (Member.printed key value tree).Sound :=
  ⟨quoted_stringChars key, ⟨blank_nil, blank_nil⟩, denotes⟩

theorem string_printed (text : String) : Denotes (Value.string text).compactChars (.text text) :=
  .string (quoted_stringChars text)

theorem bool_printed (b : Bool) : Denotes (Value.bool b).compactChars (.bool b) := by
  cases b
  · exact .no
  · exact .yes

theorem array_printed (items : List (Value × Tree))
    (each : ∀ item ∈ items, Denotes item.1.compactChars item.2) :
    Denotes (Value.array (items.map (·.1))).compactChars (.array (items.map (·.2))) := by
  have texts : Value.compactItems (items.map (·.1)) =
      (items.map fun item => (item.1.compactChars, item.2)).map (·.1) := by
    clear each
    induction items with
    | nil => rfl
    | cons item items ih => rw [List.map_cons, Value.compactItems, ih, List.map_cons, List.map_cons]
  have trees : items.map (·.2) =
      (items.map fun item => (item.1.compactChars, item.2)).map (·.2) := by
    rw [List.map_map]
    rfl
  rw [Value.compactChars, texts, trees]
  exact .array (List.forall_mem_map.mpr each) (listed_printed _)

theorem object_printed (members : List (String × Value × Tree))
    (each : ∀ m ∈ members, Denotes m.2.1.compactChars m.2.2) :
    Denotes (Value.object (members.map fun m => (m.1, m.2.1))).compactChars
      (.object (members.map fun m => (.ofString m.1, m.2.2))) := by
  have texts : Value.compactMembers (members.map fun m => (m.1, m.2.1)) =
      (members.map fun m => Member.printed m.1 m.2.1 m.2.2).map Member.text := by
    clear each
    induction members with
    | nil => rfl
    | cons m members ih =>
      rw [List.map_cons, Value.compactMembers, ih, List.map_cons, List.map_cons, Member.text_printed]
  have trees : (members.map fun m => (Content.ofString m.1, m.2.2)) =
      (members.map fun m => Member.printed m.1 m.2.1 m.2.2).map fun m => (m.key, m.value) := by
    rw [List.map_map]
    rfl
  rw [Value.compactChars, texts, trees]
  exact denotes_members (List.forall_mem_map.mpr fun m mem => Member.sound_of_denotes m.1 (each m mem))

def printedMember (key text : String) : Member :=
  ⟨.ofString key, stringChars key, [], [], .text text, stringChars text⟩

theorem sound_printed (key text : String) : (printedMember key text).Sound :=
  Member.sound_of_denotes key (string_printed text)

def textObject (texts : List (String × String)) : Value :=
  .object (texts.map fun (key, text) => (key, .string text))

theorem document_textObject (texts : List (String × String)) :
    Document (textObject texts).compactChars
      (.object (texts.map fun (key, text) => (.ofString key, .text text))) := by
  have each : ∀ m ∈ texts.map fun m => (m.1, Value.string m.2, Tree.text m.2),
      Denotes m.2.1.compactChars m.2.2 :=
    List.forall_mem_map.mpr fun m _ => string_printed m.2
  have denotes := object_printed _ each
  rw [List.map_map, List.map_map] at denotes
  exact document_of_denotes denotes

theorem quoted_lone : Quoted "\"\\ud800\"".toList [none] := by
  have escaped : EscapedUnit "\\ud800".toList 0xD800 :=
    @EscapedUnit.digits _ _ _ _ 13 8 0 0 _ (.inl rfl) (.inl rfl) (.inl rfl) (.inl rfl) rfl
  have surrogate : Leading 0xD800 := ⟨Nat.le_refl _, by decide⟩
  exact .quotes (.cons (.lone escaped (.inl surrogate)) .nil)

def loneName : Member := ⟨[none], "\"\\ud800\"".toList, [], [], .null, "null".toList⟩

theorem sound_lone_name : loneName.Sound := ⟨quoted_lone, ⟨blank_nil, blank_nil⟩, .null⟩

end Printing

section Reading

theorem value_text {text : List Char} {s : String} (denotes : Denotes text (.text s)) (depth : Nat) :
    Reads (value depth) text (.string s) := by
  intro rest delimited
  have read := string_denotes denotes rest delimited
  cases denotes with
  | string quoted =>
    obtain ⟨spelled⟩ := quoted
    rw [encodeChars_between (a := 0x22) (b := 0x22) rfl rfl] at read ⊢
    rw [string] at read
    cases depth <;> simp [value, read]

theorem value_texts {texts : List (String × String)} {text : List Char}
    (document : Document text (.object (texts.map fun (key, text) => (.ofString key, .text text)))) :
    Value.ofBytes? (encodeChars text) =
      some (.ofMembers (texts.map fun (key, text) => (key, .string text))) := by
  refine whole_document ?_ document
  intro text denotes rest delimited
  have read : Reads (object fun _ => value 126) text
      (texts.map fun (key, text) => (key, .string text)) := by
    refine object_denotes ?_ denotes
    rw [List.forall₂_map_left_iff, List.forall₂_map_right_iff, List.forall₂_same]
    intro (key, s) mem
    exact ⟨rfl, fun text denotes => value_text denotes 126⟩
  have read := read rest delimited
  obtain ⟨more, encoded⟩ := denotes.braced
  rw [encoded, List.cons_append] at read ⊢
  rw [object] at read
  simp [value, read]

end Reading

end MatrixSession.Json
