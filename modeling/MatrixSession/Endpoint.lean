import MatrixSession.Command
import MatrixSession.Feature
import MatrixSession.Version

/-!
The endpoints of the client-server API that a session uses: where they are, what they are sent,
and what they ask of the negotiated version.
-/
namespace MatrixSession

structure RoomParams where
  name : String
  topic : Option String
  invite : List String
  creationContent : Option Json.Value

namespace RoomParams

def room (name : String) : RoomParams := ⟨name, none, [], none⟩

def spaceContent : Json.Value :=
  .ofMembers [("m.federate", .bool false), ("type", .string "m.space")]

def space (name : String) : RoomParams := ⟨name, none, [], some spaceContent⟩

def toJson (p : RoomParams) : Json.Value :=
  .ofMembers <|
    [("name", .string p.name), ("visibility", .string "private"),
      ("preset", .string "private_chat"), ("initial_state", .array [])] ++
    (p.topic.map fun topic => ("topic", .string topic)).toList ++
    (if p.invite.isEmpty then [] else [("invite", .array (p.invite.map .string))]) ++
    (p.creationContent.map fun content => ("creation_content", content)).toList

end RoomParams

inductive Endpoint where
  | versions
  | refresh (token : String)
  | whoami
  | createRoom (params : RoomParams)
  | roomInfo (roomId : String)
  | roomMembers (roomId : String)
  | roomTopic (roomId topic : String)
  | invite (roomId userId : String)
  | mediaCreate

namespace Endpoint

def method : Endpoint → String
  | versions | whoami | roomInfo _ | roomMembers _ => "GET"
  | refresh _ | createRoom _ | invite .. | mediaCreate => "POST"
  | roomTopic .. => "PUT"

def segments : Endpoint → List String
  | versions => ["_matrix", "client", "versions"]
  | refresh _ => ["_matrix", "client", "v3", "refresh"]
  | whoami => ["_matrix", "client", "v3", "account", "whoami"]
  | createRoom _ => ["_matrix", "client", "v3", "createRoom"]
  | roomInfo roomId => ["_matrix", "client", "v1", "rooms", roomId, "hierarchy"]
  | roomMembers roomId => ["_matrix", "client", "v3", "rooms", roomId, "joined_members"]
  | roomTopic roomId _ => ["_matrix", "client", "v3", "rooms", roomId, "state", "m.room.topic"]
  | invite roomId _ => ["_matrix", "client", "v3", "rooms", roomId, "invite"]
  | mediaCreate => ["_matrix", "media", "v1", "create"]

def query : Endpoint → List (String × String)
  | roomInfo _ => [("max_depth", "0"), ("limit", "1")]
  | _ => []

def body? : Endpoint → Option Json.Value
  | refresh token => some (.ofMembers [("refresh_token", .string token)])
  | createRoom params => some params.toJson
  | roomTopic _ topic => some (.ofMembers [("topic", .string topic)])
  | invite _ userId => some (.ofMembers [("user_id", .string userId)])
  | mediaCreate => some (.ofMembers [])
  | versions | whoami | roomInfo _ | roomMembers _ => none

/-- Discovery needs no token, and for a refresh the refresh token is the credential. -/
def isPublic : Endpoint → Bool
  | versions | refresh _ => true
  | _ => false

def feature? : Endpoint → Option Feature
  | createRoom _ => some .createRoomV3
  | roomInfo _ => some .getRoomInfoV1
  | roomMembers _ => some .getRoomMembersV3
  | roomTopic .. => some .updateRoomTopicV3
  | invite .. => some .inviteMemberV3
  | mediaCreate => some .mediaCreateV1
  | versions | refresh _ | whoami => none

/-- The lowest version that has the endpoint, where a feature alone does not say so. -/
def minVersion? : Endpoint → Option ApiVersion
  | mediaCreate => some ⟨1, 7⟩
  | _ => none

def command (e : Endpoint) (server : Url) : Except Url.Fault Command := do
  let plain ← Command.new e.method server e.segments
  let asked := e.query.foldl (fun c (key, value) => c.withQuery key value) plain
  let filled := (e.body?.map asked.withJson).getD asked
  .ok (if e.isPublic then filled.asPublic else filled)

theorem url_of_command {e : Endpoint} {server : Url} {c : Command} (built : e.command server = .ok c) :
    ∃ url query, server.withSegments? e.segments = some url ∧
      c.url = { url with query := query } := by
  have asked (pairs : List (String × String)) (c : Command) :
      ∃ query, (pairs.foldl (fun c pair => c.withQuery pair.1 pair.2) c).url =
        { c.url with query := query } := by
    induction pairs generalizing c with
    | nil => exact ⟨_, rfl⟩
    | cons pair pairs ih => exact ih (c.withQuery pair.1 pair.2)
  unfold command Command.new at built
  cases extended : server.withSegments? e.segments with
  | none =>
    rw [extended] at built
    contradiction
  | some url =>
    rw [extended] at built
    obtain rfl := Except.ok.inj built
    obtain ⟨query, same⟩ := asked e.query ⟨e.method, url, none, .empty, true⟩
    refine ⟨url, query, rfl, ?_⟩
    rw [← same]
    cases e.isPublic <;> cases e.body? <;> rfl

end Endpoint

end MatrixSession
