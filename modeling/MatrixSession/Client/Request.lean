import MatrixSession.Client.Execute

/-!
Requests to the endpoints, and what is read from the responses. An endpoint that the negotiated
version does not have is refused before anything is sent.
-/
namespace MatrixSession.Client

def successBody (command : Command) (response : Response) : Except Failure Json.Value :=
  if !response.isSuccess then .error (.httpStatus response.status command.path response.text)
  else if response.body.isEmpty then .ok .null
  else response.decode Json.Value.ofBytes?

def request (c : Client) (e : Endpoint) : Call Json.Value := do
  Call.ofExcept (c.allow e)
  let command ← Call.ofExcept (e.build c.server)
  let response ← c.execute command
  Call.ofExcept (successBody command response)

def requestText (c : Client) (e : Endpoint) (key : String) (missing : ProtocolFault) :
    Call String := do
  let body ← c.request e
  Call.ofExcept (((body.member? key).bind Json.Value.string?).elim (.error (.protocol missing)) .ok)

def whoami (c : Client) : Call String := c.requestText .whoami "user_id" .noUserId

def createRoom (c : Client) (params : RoomParams) : Call String :=
  c.requestText (.createRoom params) "room_id" .noRoomId

/-- The first entry of the room's hierarchy, which is the room itself. -/
def roomInfo (c : Client) (roomId : String) : Call Json.Value := do
  let body ← c.request (.roomInfo roomId)
  let rooms := (body.member? "rooms").bind Json.Value.array?
  Call.ofExcept ((rooms.bind List.head?).elim (.error (.protocol (.noHierarchyEntry roomId))) .ok)

def setRoomTopic (c : Client) (roomId topic : String) : Call Unit := do
  let _ ← c.request (.roomTopic roomId topic)

def invite (c : Client) (roomId userId : String) : Call Unit := do
  let _ ← c.request (.invite roomId userId)

def roomMembers (c : Client) (roomId : String) : Call (List String) := do
  let body ← c.request (.roomMembers roomId)
  let joined := (body.member? "joined").bind Json.Value.object?
  Call.ofExcept (joined.elim (.error (.protocol .noJoinedMap)) fun members =>
    .ok (members.map (·.1)))

def createMedia (c : Client) : Call String := c.requestText .mediaCreate "content_uri" .noContentUri

end MatrixSession.Client
