import MatrixSession.Failure
import MatrixSession.Proofs.Connection.Description

/-!
Descriptions on their own. The text of a description is read back as that description, and members that
no field has the name of may be put in anywhere without a change of what is read.
-/
namespace MatrixSession.ServerSupports

open Json Utf8

def members (s : ServerSupports) : List (Content × Tree) :=
  [(.ofString "versions", .array (s.versions.map Tree.text)),
    (.ofString "unstable_features",
      .object (s.unstable.entries.map fun (name, on) => (.ofString name, .bool on)))]

/-- A member whose name is a text that no field has. Its value may be anything. -/
def IsUnknown (m : Content × Tree) : Prop :=
  ∃ name, m.1 = .ofString name ∧ name ≠ "versions" ∧ name ≠ "unstable_features"

/-- The list with unknown members put in at any places. -/
inductive Inserted : List (Content × Tree) → List (Content × Tree) → Prop
  | nil : Inserted [] []
  | keep {base more : List (Content × Tree)} (m : Content × Tree) (rest : Inserted base more) :
      Inserted (m :: base) (m :: more)
  | unknown {base more : List (Content × Tree)} {m : Content × Tree} (unknown : IsUnknown m)
      (rest : Inserted base more) : Inserted base (m :: more)

variable {s : ServerSupports} {base more : List (Content × Tree)} {m : Content × Tree}

theorem Inserted.refl : ∀ base, Inserted base base
  | [] => .nil
  | m :: base => .keep m (refl base)

theorem Inserted.mem (inserted : Inserted base more) (mem : m ∈ more) : m ∈ base ∨ IsUnknown m := by
  induction inserted with
  | nil => contradiction
  | keep first rest ih =>
    obtain rfl | mem := List.mem_cons.mp mem
    · exact .inl List.mem_cons_self
    · exact (ih mem).imp_left (List.mem_cons_of_mem first)
  | unknown unknown rest ih =>
    obtain rfl | mem := List.mem_cons.mp mem
    · exact .inr unknown
    · exact ih mem

theorem IsUnknown.apart (unknown : IsUnknown m) :
    m.1 ≠ .ofString "versions" ∧ m.1 ≠ .ofString "unstable_features" := by
  obtain ⟨name, named, notVersions, notUnstable⟩ := unknown
  rw [named]
  exact ⟨fun same => notVersions (Content.ofString_injective same),
    fun same => notUnstable (Content.ofString_injective same)⟩

theorem Inserted.count (inserted : Inserted base more) {key : Content}
    (field : ∀ m, IsUnknown m → m.1 ≠ key) :
    (more.map (·.1)).count key = (base.map (·.1)).count key := by
  induction inserted with
  | nil => rfl
  | keep m rest ih => rw [List.map_cons, List.map_cons, List.count_cons, List.count_cons, ih]
  | unknown unknown rest ih => rw [List.map_cons, List.count_cons_of_ne (field _ unknown), ih]

theorem field_of_members (mem : m ∈ s.members) :
    m = (.ofString "versions", .array (s.versions.map Tree.text)) ∨
      m = (.ofString "unstable_features",
        .object (s.unstable.entries.map fun (name, on) => (.ofString name, .bool on))) := by
  simpa [members] using mem

theorem ofBytes?_inserted {text : List Char} (order : base.Perm s.members)
    (inserted : Inserted base more) (document : Document text (.object more)) :
    ofBytes? (encodeChars text) = some s := by
  have origin (m : Content × Tree) (mem : m ∈ more) : m ∈ s.members ∨ IsUnknown m :=
    (inserted.mem mem).imp_left order.mem_iff.mp
  have count {key : Content} (field : ∀ m, IsUnknown m → m.1 ≠ key) :
      (more.map (·.1)).count key = (s.members.map (·.1)).count key :=
    (inserted.count field).trans ((order.map (·.1)).count_eq key)
  have other : Content.ofString "versions" ≠ .ofString "unstable_features" := by decide
  have versionsOnce : (more.map (·.1)).count (.ofString "versions") = 1 := by
    rw [count fun m unknown => unknown.apart.1]
    simp [members, other.symm]
  have unstableOnce : (more.map (·.1)).count (.ofString "unstable_features") = 1 := by
    rw [count fun m unknown => unknown.apart.2]
    simp [members, other]
  have lists : Lists more s.versions := by
    refine ⟨versionsOnce, fun m mem isVersions => ?_⟩
    obtain known | unknown := origin m mem
    · obtain rfl | rfl := field_of_members known
      · rfl
      · exact absurd isVersions other.symm
    · exact absurd isVersions unknown.apart.1
  have named : ∀ m ∈ more, ∃ name, m.1 = .ofString name := by
    intro m mem
    obtain known | ⟨name, named, -⟩ := origin m mem
    · obtain rfl | rfl := field_of_members known <;> exact ⟨_, rfl⟩
    · exact ⟨name, named⟩
  have booleans : ∀ m ∈ more, m.1 = .ofString "unstable_features" →
      m.2 = .object (s.unstable.entries.map fun (name, on) => (.ofString name, .bool on)) := by
    intro m mem isUnstable
    obtain known | unknown := origin m mem
    · obtain rfl | rfl := field_of_members known
      · exact absurd isUnstable other
      · rfl
    · exact absurd isUnstable unknown.apart.2
  rw [ofBytes?_members document lists named unstableOnce.le booleans, unstableOnce, if_neg one_ne_zero,
    Dictionary.ofList_entries]

theorem decode_inserted {text : List Char} (order : base.Perm s.members)
    (inserted : Inserted base more) (document : Document text (.object more)) (status : UInt16) :
    (⟨status, encodeChars text⟩ : Response).decode ofBytes? = .ok s := by
  rw [Response.decode, ofBytes?_inserted order inserted document]

section Printing

variable (s : ServerSupports)

theorem versions_printed :
    Denotes (Value.array (s.versions.map .string)).compactChars (.array (s.versions.map Tree.text)) := by
  have printed := array_printed (s.versions.map fun version => (.string version, .text version))
    (List.forall_mem_map.mpr fun version _ => string_printed version)
  rwa [List.map_map, List.map_map] at printed

theorem unstable_printed :
    Denotes (Value.object (s.unstable.entries.map fun (key, on) => (key, .bool on))).compactChars
      (.object (s.unstable.entries.map fun (name, on) => (.ofString name, .bool on))) := by
  have printed := object_printed (s.unstable.entries.map fun e => (e.1, .bool e.2, .bool e.2))
    (List.forall_mem_map.mpr fun e _ => bool_printed e.2)
  rwa [List.map_map, List.map_map] at printed

def printedFields : List (String × Value × Tree) :=
  [("versions", .array (s.versions.map .string), .array (s.versions.map Tree.text)),
    ("unstable_features", .object (s.unstable.entries.map fun (key, on) => (key, .bool on)),
      .object (s.unstable.entries.map fun (name, on) => (.ofString name, .bool on)))]

theorem fields_printed : ∀ m ∈ s.printedFields, Denotes m.2.1.compactChars m.2.2 :=
  List.forall_mem_cons.mpr ⟨s.versions_printed, List.forall_mem_singleton.mpr s.unstable_printed⟩

theorem document_serialized : Document s.serialized.toList (.object s.members) := by
  rw [serialized, Value.compact, String.toList_ofList]
  exact document_of_denotes (object_printed s.printedFields s.fields_printed)

theorem toJson_eq : s.toJson = .object s.fields.reverse := by
  have less : "unstable_features" < "versions" := by decide
  simp [toJson, fields, Value.ofMembers, insertEntry, less]

theorem document_toJson : Document s.toJson.compact.toList (.object s.members.reverse) := by
  have printed := object_printed s.printedFields.reverse fun m mem =>
    s.fields_printed m (List.mem_reverse.mp mem)
  rw [toJson_eq, Value.compact, String.toList_ofList]
  exact document_of_denotes printed

end Printing

/-- A description is read back from its own text, and from the text of it with the keys in order. It is read
    too from any text where its fields are written with other members put in anywhere, of whatever
    values, if their names are texts that no field has. -/
theorem description_reads_back (s : ServerSupports) (status : UInt16) :
    (⟨status, encode s.serialized⟩ : Response).decode ofBytes? = .ok s ∧
      (⟨status, encode s.toJson.compact⟩ : Response).decode ofBytes? = .ok s ∧
      ∀ (base more : List (Content × Tree)) (text : List Char), base.Perm s.members →
        Inserted base more → Document text (.object more) →
          (⟨status, encodeChars text⟩ : Response).decode ofBytes? = .ok s := by
  refine ⟨?_, ?_, fun base more text order inserted document => ?_⟩
  · exact decode_inserted (.refl _) (.refl _) s.document_serialized status
  · exact decode_inserted s.members.reverse_perm (.refl _) s.document_toJson status
  · exact decode_inserted order inserted document status

section Samples

def oddDescription : ServerSupports := ⟨["v1.1", "\"\\\x01😀"], .ofList [("ü\n", false), ("", true)]⟩

def loneMember : Member :=
  ⟨.ofString "x", stringChars "x", [' '], ['\n'], .string [none], "\"\\ud800\"".toList⟩

def nestedMember : Member :=
  .printed "Versions" (.object [("versions", .null)]) (.object [(.ofString "versions", .null)])

theorem sound_lone : loneMember.Sound :=
  ⟨quoted_stringChars "x", by simp [loneMember, Blank], .string quoted_lone⟩

theorem sound_nested : nestedMember.Sound :=
  Member.sound_of_denotes "Versions" (object_printed [("versions", .null, .null)]
    (List.forall_mem_singleton.mpr .null))

def oddMembers : List Member :=
  [loneMember, .printed "versions" (.array (oddDescription.versions.map .string))
      (.array (oddDescription.versions.map Tree.text)),
    nestedMember, .printed "unstable_features"
      (.object (oddDescription.unstable.entries.map fun (key, on) => (key, .bool on)))
      (.object (oddDescription.unstable.entries.map fun (name, on) => (.ofString name, .bool on)))]

theorem sound_odd_members : ∀ m ∈ oddMembers, m.Sound := by
  simp only [oddMembers, List.forall_mem_cons, List.not_mem_nil, false_implies, implies_true, and_true]
  exact ⟨sound_lone, Member.sound_of_denotes _ oddDescription.versions_printed, sound_nested,
    Member.sound_of_denotes _ oddDescription.unstable_printed⟩

theorem odd_description_reads_back :
    let text := '{' :: separated (oddMembers.map Member.text) ++ ['}']
    Document text (.object (oddMembers.map fun m => (m.key, m.value))) ∧
      (⟨200, encodeChars text⟩ : Response).decode ofBytes? = .ok oddDescription := by
  intro text
  have document := document_members sound_odd_members
  have lone : IsUnknown (loneMember.key, loneMember.value) := ⟨"x", rfl, by decide, by decide⟩
  have nested : IsUnknown (nestedMember.key, nestedMember.value) :=
    ⟨"Versions", rfl, by decide, by decide⟩
  have inserted : Inserted oddDescription.members (oddMembers.map fun m => (m.key, m.value)) :=
    .unknown lone (.keep _ (.unknown nested (.keep _ .nil)))
  exact ⟨document, (description_reads_back oddDescription 200).2.2 _ _ _ (.refl _) inserted document⟩

def plainDescription : ServerSupports := ⟨["v1.1"], .empty⟩

def loneMembers : List Member :=
  [.printed "versions" (.array [.string "v1.1"]) (.array [.text "v1.1"]),
    .printed "unstable_features" (.object []) (.object []), loneName]

theorem sound_lone_members : ∀ m ∈ loneMembers, m.Sound := by
  simp only [loneMembers, List.forall_mem_cons, List.not_mem_nil, false_implies, implies_true, and_true]
  exact ⟨Member.sound_of_denotes _ plainDescription.versions_printed,
    Member.sound_of_denotes _ plainDescription.unstable_printed, sound_lone_name⟩

/-- A name that is no text cannot be read, although no field has it. -/
theorem lone_name_is_refused :
    let text := '{' :: separated (loneMembers.map Member.text) ++ ['}']
    Document text (.object (plainDescription.members ++ [(loneName.key, loneName.value)])) ∧
      loneName.key ∉ plainDescription.members.map (·.1) ∧
      (⟨200, encode plainDescription.serialized⟩ : Response).decode ofBytes? = .ok plainDescription ∧
      (⟨200, encodeChars text⟩ : Response).decode ofBytes? = .error (.protocol .malformedJson) := by
  intro text
  have listed : loneMembers.map (fun m => (m.key, m.value)) =
      plainDescription.members ++ [(loneName.key, loneName.value)] := by
    simp only [loneMembers, Member.printed, plainDescription, members, List.map_cons, List.map_nil,
      List.cons_append, List.nil_append, Tree.text]
    rfl
  have document := document_members sound_lone_members
  rw [listed] at document
  have unread : (ofBytes? (encodeChars text)).isNone = true := by decide +kernel
  refine ⟨document, by decide, ?_, ?_⟩
  · exact decode_inserted (.refl _) (.refl _) plainDescription.document_serialized 200
  · rw [Response.decode, Option.isNone_iff_eq_none.mp unread]

end Samples

end MatrixSession.ServerSupports
