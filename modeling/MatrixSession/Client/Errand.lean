import MatrixSession.Client.Request

/-!
Everything that a client can be sent out for, as values, so that whole sessions can be spoken of:
a session is a list of errands.
-/
namespace MatrixSession

inductive Errand where
  | execute (command : Command)
  | whoami
  | createRoom (params : RoomParams)
  | roomInfo (roomId : String)
  | roomMembers (roomId : String)
  | setRoomTopic (roomId topic : String)
  | invite (roomId userId : String)
  | createMedia

inductive Errand.Yield where
  | response (response : Response)
  | text (text : String)
  | texts (texts : List String)
  | value (value : Json.Value)
  | nothing

namespace Errand

def endpoint? : Errand → Option Endpoint
  | execute _ => none
  | whoami => some .whoami
  | createRoom params => some (.createRoom params)
  | roomInfo roomId => some (.roomInfo roomId)
  | roomMembers roomId => some (.roomMembers roomId)
  | setRoomTopic roomId topic => some (.roomTopic roomId topic)
  | invite roomId userId => some (.invite roomId userId)
  | createMedia => some .mediaCreate

end Errand

def Client.perform (c : Client) : Errand → Call Errand.Yield
  | .execute command => .response <$> c.execute command
  | .whoami => .text <$> c.whoami
  | .createRoom params => .text <$> c.createRoom params
  | .roomInfo roomId => .value <$> c.roomInfo roomId
  | .roomMembers roomId => .texts <$> c.roomMembers roomId
  | .setRoomTopic roomId topic => (fun _ => .nothing) <$> c.setRoomTopic roomId topic
  | .invite roomId userId => (fun _ => .nothing) <$> c.invite roomId userId
  | .createMedia => .text <$> c.createMedia

end MatrixSession
