import MatrixSession.Feature
import MatrixSession.Version

/-!
Catalogs of implemented versions. A version declares the features it adds and may build on
another one; its capabilities are the union of what is declared along that lineage.
-/
namespace MatrixSession

structure VersionSpec where
  identifier : String
  inherits : Option String
  features : List Feature
  deriving DecidableEq, Repr

structure Catalog where
  specs : List VersionSpec
  deriving DecidableEq, Repr

namespace Catalog

inductive Fault where
  | unknownParent (identifier parent : String)
  | duplicateVersion (identifier : String)
  | unknownVersion (identifier : String)
  | cycle (identifier : String)
  deriving DecidableEq, Repr

def Fault.text : Fault → String
  | unknownParent identifier parent => identifier ++ " inherits from unknown version " ++ parent
  | duplicateVersion identifier => "duplicate version " ++ identifier
  | unknownVersion identifier => "unknown version " ++ identifier
  | cycle identifier => "inheritance cycle through " ++ identifier

def find? (catalog : Catalog) (identifier : String) : Option VersionSpec :=
  catalog.specs.find? (·.identifier = identifier)

/-- Adds one declaration to the versions listed so far. A malformed identifier is passed over; a
    parent must be declared, and a version must be new. -/
def enlist (catalog : Catalog) (listed : List SupportedVersion) (spec : VersionSpec) :
    Except Fault (List SupportedVersion) :=
  match ApiVersion.ofIdentifier? spec.identifier with
  | none => .ok listed
  | some version =>
    match spec.inherits.filter fun parent => (catalog.find? parent).isNone with
    | some parent => .error (.unknownParent spec.identifier parent)
    | none =>
      if version ∈ listed.map (·.version) then .error (.duplicateVersion spec.identifier)
      else .ok (listed ++ [.canonical version])

def supportedVersions (catalog : Catalog) : Except Fault (List SupportedVersion) := do
  let listed ← catalog.specs.foldlM catalog.enlist []
  .ok (listed.mergeSort fun a b => decide (a.version ≤ b.version))

/-- The declarations from an identifier up to one without a parent, after those already visited.
    Every step visits a declared identifier that was not visited before, so the walk ends. -/
def lineageFrom (catalog : Catalog) (visited : List String) (identifier : String) :
    Except Fault (List VersionSpec) :=
  if _fresh : identifier ∈ visited then .error (.cycle identifier)
  else match _found : catalog.find? identifier with
    | none => .error (.unknownVersion identifier)
    | some spec =>
      match spec.inherits with
      | none => .ok [spec]
      | some parent => (catalog.lineageFrom (identifier :: visited) parent).map (spec :: ·)
termination_by (catalog.specs.filter fun spec => !visited.contains spec.identifier).length
decreasing_by
  have named : spec.identifier = identifier := by simpa using List.find?_some _found
  have fewer : (catalog.specs.filter fun other => !(identifier :: visited).contains other.identifier) =
      (catalog.specs.filter fun other => !visited.contains other.identifier).filter
        fun other => decide (other.identifier ≠ identifier) := by
    rw [List.filter_filter]
    simp
  rw [fewer, List.length_filter_lt_length_iff_exists]
  have unvisited : spec ∈ catalog.specs.filter fun other => !visited.contains other.identifier :=
    List.mem_filter.mpr ⟨List.mem_of_find?_eq_some _found, by simpa [named] using _fresh⟩
  exact ⟨spec, unvisited, by simp [named]⟩

def lineage (catalog : Catalog) (identifier : String) : Except Fault (List VersionSpec) :=
  catalog.lineageFrom [] identifier

def capabilities (catalog : Catalog) (identifier : String) : Except Fault FeatureSet := do
  let specs ← catalog.lineage identifier
  .ok (.ofList (specs.flatMap (·.features)))

def builtin : Catalog :=
  ⟨[⟨"v1p1", none,
      [.createRoomV3, .getRoomInfoV1, .getRoomMembersV3, .getRoomPowerLevelsFromSyncV3,
        .inviteMemberV3, .removeMemberFromRoomV3, .updateRoomAvatarV3, .updateRoomNameV3,
        .updateRoomTopicV3, .updateRoomPowerLevelsV3, .uploadContentV3, .synapseCreateUserV2,
        .synapseGetUserInfoV2]⟩,
    ⟨"v1p2", some "v1p1", []⟩,
    ⟨"v1p3", some "v1p2", [.refreshTokenV3]⟩,
    ⟨"v1p4", some "v1p3", []⟩,
    ⟨"v1p5", some "v1p4", []⟩,
    ⟨"v1p6", some "v1p5", []⟩,
    ⟨"v1p7", some "v1p6", [.mediaCreateV1]⟩]⟩

end Catalog

end MatrixSession
