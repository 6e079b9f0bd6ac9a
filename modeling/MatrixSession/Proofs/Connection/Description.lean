import MatrixSession.Discovery
import MatrixSession.Proofs.Json.Members

/-!
Descriptions of a server as JSON objects. One that can be read lists the versions that its `versions`
member lists, whatever its other members are.
-/
namespace MatrixSession.ServerSupports

open Json Utf8

/-- An object with one `versions` member, which lists the given texts. -/
structure Lists (members : List (Content × Tree)) (versions : List String) : Prop where
  once : (members.map (·.1)).count (.ofString "versions") = 1
  texts : ∀ m ∈ members, m.1 = .ofString "versions" → m.2 = .array (versions.map Tree.text)

/-- What else is asked of an object: names without lone surrogates, and at most one
    `unstable_features` member, an object of booleans. -/
structure Readable (members : List (Content × Tree)) : Prop where
  named : ∀ m ∈ members, ∃ key, m.1 = .ofString key
  once : (members.map (·.1)).count (.ofString "unstable_features") ≤ 1
  flags : ∃ flags : List (String × Bool), ∀ m ∈ members, m.1 = .ofString "unstable_features" →
    m.2 = .object (flags.map fun (name, on) => (.ofString name, .bool on))

theorem versionList_denotes {versions : List String} {text : List Char}
    (denotes : Denotes text (.array (versions.map Tree.text))) : Reads versionList text versions := by
  refine array_denotes ?_ denotes
  rw [List.forall₂_map_left_iff, List.forall₂_same]
  intro version mem text denotes
  exact string_denotes denotes

theorem unstableMembers_denotes {flags : List (String × Bool)} {text : List Char}
    (denotes : Denotes text (.object (flags.map fun (name, on) => (.ofString name, .bool on)))) :
    Reads unstableMembers text flags := by
  refine object_denotes ?_ denotes
  rw [List.forall₂_map_left_iff, List.forall₂_same]
  intro (name, on) mem
  exact ⟨rfl, fun text denotes => bool_denotes denotes⟩

def fieldOf (versions : List String) (flags : List (String × Bool)) (key : String) : Field :=
  if key = "versions" then .versions versions
  else if key = "unstable_features" then .unstable flags
  else .other

theorem field_denotes {versions : List String} {flags : List (String × Bool)} {key : String}
    {tree : Tree} (listed : key = "versions" → tree = .array (versions.map Tree.text))
    (flagged : key = "unstable_features" →
      tree = .object (flags.map fun (name, on) => (.ofString name, .bool on)))
    {text : List Char} (denotes : Denotes text tree) :
    Reads (field key) text (fieldOf versions flags key) := by
  intro rest delimited
  unfold field fieldOf
  split_ifs with isVersions isUnstable
  · obtain rfl := listed isVersions
    rw [versionList_denotes denotes rest delimited]
    rfl
  · obtain rfl := flagged isUnstable
    rw [unstableMembers_denotes denotes rest delimited]
    rfl
  · rw [skip_denotes denotes rest delimited]
    rfl

theorem ofFields_fieldOf (versions : List String) (flags : List (String × Bool))
    {keys : List String} (listed : keys.count "versions" = 1)
    (flagged : keys.count "unstable_features" ≤ 1) :
    ofFields? (keys.map (fieldOf versions flags)) =
      some ⟨versions, if keys.count "unstable_features" = 0 then .empty else .ofList flags⟩ := by
  have versionLists : (keys.map (fieldOf versions flags)).filterMap Field.versions? = [versions] := by
    have others (key : String) (other : key ≠ "versions") :
        (fieldOf versions flags key).versions? = none := by
      rw [fieldOf, if_neg other]
      split_ifs <;> rfl
    have own : (fieldOf versions flags "versions").versions? = some versions := rfl
    rw [filterMap_count own others, listed]
    rfl
  have flagLists : (keys.map (fieldOf versions flags)).filterMap Field.unstable? =
      List.replicate (keys.count "unstable_features") flags := by
    have others (key : String) (other : key ≠ "unstable_features") :
        (fieldOf versions flags key).unstable? = none := by
      unfold fieldOf
      split_ifs <;> rfl
    have own : (fieldOf versions flags "unstable_features").unstable? = some flags := rfl
    exact filterMap_count own others keys
  unfold ofFields?
  rw [versionLists, flagLists]
  obtain none | one : keys.count "unstable_features" = 0 ∨ keys.count "unstable_features" = 1 := by
    omega
  · rw [none]
    rfl
  · rw [one]
    rfl

theorem reader_object (more : List UInt8) (fields : List (String × Field)) (rest : List UInt8)
    (read : object field (0x7B :: more) = some (fields, rest)) :
    reader (0x7B :: more) = (ofFields? (fields.map (·.2))).map fun made => (made, rest) := by
  rw [reader, read]
  · cases made : ofFields? (fields.map (·.2)) <;> simp [made]
  · intro more array
    exact absurd (List.cons.inj array).1 (by decide)

theorem ofBytes?_members {text : List Char} {members : List (Content × Tree)}
    {versions : List String} {flags : List (String × Bool)}
    (document : Document text (.object members)) (lists : Lists members versions)
    (named : ∀ m ∈ members, ∃ key, m.1 = .ofString key)
    (once : (members.map (·.1)).count (.ofString "unstable_features") ≤ 1)
    (booleans : ∀ m ∈ members, m.1 = .ofString "unstable_features" →
      m.2 = .object (flags.map fun (name, on) => (.ofString name, .bool on))) :
    ofBytes? (encodeChars text) = some ⟨versions,
      if (members.map (·.1)).count (.ofString "unstable_features") = 0 then .empty
      else .ofList flags⟩ := by
  obtain ⟨listed, texts⟩ := lists
  obtain ⟨keys, named⟩ := exists_names named
  rw [named.count] at listed once ⊢
  have made := ofFields_fieldOf versions flags listed once
  refine whole_document (fun text => named.record reader_object ?_ made) document
  intro m mem key same text denotes
  refine field_denotes ?_ ?_ denotes
  · rintro rfl
    exact texts m mem same
  · rintro rfl
    exact booleans m mem same

theorem ofBytes?_document {text : List Char} {members : List (Content × Tree)}
    {versions : List String} (document : Document text (.object members))
    (lists : Lists members versions) (readable : Readable members) :
    ∃ supports, ofBytes? (encodeChars text) = some supports ∧ supports.versions = versions := by
  obtain ⟨named, once, flags, booleans⟩ := readable
  exact ⟨_, ofBytes?_members document lists named once booleans, rfl⟩

end MatrixSession.ServerSupports
