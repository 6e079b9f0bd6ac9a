/-!
Optional behaviours of a homeserver, sets of them, and requirements on such a set.
-/
namespace MatrixSession

inductive Feature where
  | createRoomV3
  | getRoomInfoV1
  | getRoomMembersV3
  | getRoomPowerLevelsFromSyncV3
  | inviteMemberV3
  | removeMemberFromRoomV3
  | updateRoomAvatarV3
  | updateRoomNameV3
  | updateRoomTopicV3
  | updateRoomPowerLevelsV3
  | uploadContentV3
  | refreshTokenV3
  | mediaCreateV1
  | synapseCreateUserV2
  | synapseGetUserInfoV2
  deriving DecidableEq, Repr

namespace Feature

def all : List Feature :=
  [createRoomV3, getRoomInfoV1, getRoomMembersV3, getRoomPowerLevelsFromSyncV3, inviteMemberV3,
    removeMemberFromRoomV3, updateRoomAvatarV3, updateRoomNameV3, updateRoomTopicV3,
    updateRoomPowerLevelsV3, uploadContentV3, refreshTokenV3, mediaCreateV1, synapseCreateUserV2,
    synapseGetUserInfoV2]

def name : Feature → String
  | createRoomV3 => "matrix.create_room_v3"
  | getRoomInfoV1 => "matrix.get_room_info_v1"
  | getRoomMembersV3 => "matrix.get_room_members_v3"
  | getRoomPowerLevelsFromSyncV3 => "matrix.get_room_powerlevels_from_sync_v3"
  | inviteMemberV3 => "matrix.invite_member_v3"
  | removeMemberFromRoomV3 => "matrix.remove_member_from_room_v3"
  | updateRoomAvatarV3 => "matrix.update_room_avatar_v3"
  | updateRoomNameV3 => "matrix.update_room_name_v3"
  | updateRoomTopicV3 => "matrix.update_room_topic_v3"
  | updateRoomPowerLevelsV3 => "matrix.update_room_power_levels_v3"
  | uploadContentV3 => "matrix.upload_content_v3"
  | refreshTokenV3 => "matrix.refresh_token_v3"
  | mediaCreateV1 => "matrix.media_create_v1"
  | synapseCreateUserV2 => "synapse.create_user_v2"
  | synapseGetUserInfoV2 => "synapse.get_user_info_v2"

def ofName? (text : String) : Option Feature := all.find? (·.name = text)

theorem mem_all (f : Feature) : f ∈ all := by cases f <;> decide

end Feature

structure FeatureSet where
  has : Feature → Bool

namespace FeatureSet

instance : Membership Feature FeatureSet := ⟨fun s f => s.has f = true⟩

instance (f : Feature) (s : FeatureSet) : Decidable (f ∈ s) :=
  inferInstanceAs (Decidable (s.has f = true))

def empty : FeatureSet := ⟨fun _ => false⟩

def ofList (features : List Feature) : FeatureSet := ⟨fun f => features.contains f⟩

def union (s t : FeatureSet) : FeatureSet := ⟨fun f => s.has f || t.has f⟩

def toList (s : FeatureSet) : List Feature := Feature.all.filter s.has

theorem mem_ofList {f : Feature} {features : List Feature} :
    f ∈ ofList features ↔ f ∈ features := by
  simp [Membership.mem, ofList]

theorem mem_union {f : Feature} {s t : FeatureSet} : f ∈ s.union t ↔ f ∈ s ∨ f ∈ t := by
  simp [Membership.mem, union]

@[ext]
theorem ext {s t : FeatureSet} (same : ∀ f, f ∈ s ↔ f ∈ t) : s = t := by
  cases s
  cases t
  congr
  funext f
  exact Bool.eq_iff_iff.mpr (same f)

theorem ofList_append (xs ys : List Feature) : ofList (xs ++ ys) = (ofList xs).union (ofList ys) := by
  ext f
  simp only [mem_union, mem_ofList, List.mem_append]

theorem empty_union (s : FeatureSet) : empty.union s = s := by
  simp [empty, union]

theorem union_assoc (r s t : FeatureSet) : (r.union s).union t = r.union (s.union t) := by
  ext f
  simp only [mem_union, or_assoc]

theorem mem_toList {f : Feature} {s : FeatureSet} : f ∈ s.toList ↔ f ∈ s := by
  simp [toList, Feature.mem_all]; rfl

end FeatureSet

inductive Requirement where
  | one (feature : Feature)
  | anyOf (group : List Feature)
  deriving DecidableEq, Repr

namespace Requirement

def features : Requirement → List Feature
  | one feature => [feature]
  | anyOf group => group

/-- Some feature of the requirement is in the set. An empty group is never met. -/
def MetBy (r : Requirement) (s : FeatureSet) : Prop := ∃ f ∈ r.features, f ∈ s

instance (r : Requirement) (s : FeatureSet) : Decidable (r.MetBy s) :=
  inferInstanceAs (Decidable (∃ f ∈ r.features, f ∈ s))

def text : Requirement → String
  | one feature => "'" ++ feature.name ++ "'"
  | anyOf group => "none of '" ++ ", ".intercalate (group.map Feature.name) ++ "'"

end Requirement

end MatrixSession
