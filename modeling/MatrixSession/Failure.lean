import MatrixSession.Catalog
import MatrixSession.Response
import MatrixSession.Text.Quoted
import MatrixSession.UserId

/-!
Everything that can go wrong in a session, by cause, and the message that reports it.
-/
namespace MatrixSession

inductive TransportFault where
  | http
  | scripted (text : String)
  deriving DecidableEq, Repr

inductive ProtocolFault where
  | malformedJson
  | unreadableBody
  | notAVersion (text : String)
  | unknownFeature (name : String)
  | noUserId
  | noRoomId
  | noHierarchyEntry (roomId : String)
  | noJoinedMap
  | noContentUri
  | scripted (text : String)
  deriving DecidableEq, Repr

inductive Failure where
  | noCommonVersion (serverUrl : String) (offered : List String)
  | transport (fault : TransportFault)
  | protocol (fault : ProtocolFault)
  | httpStatus (status : UInt16) (path body : String)
  | unsupportedFeature (requirement : Requirement)
  | authExpired
  | versionTooLow (required actual : ApiVersion)
  | missingAccessToken
  | catalog (fault : Catalog.Fault)
  | invalidUrl (fault : Url.Fault)
  | invalidUserId (fault : UserId.Fault)
  deriving DecidableEq, Repr

/-- What a network library says is not part of the message. -/
def TransportFault.text : TransportFault → String
  | http => "<http>"
  | scripted text => text

def ProtocolFault.text : ProtocolFault → String
  | malformedJson => "<json>"
  | unreadableBody => "<http>"
  | notAVersion text => "not a MAJOR.MINOR version: " ++ Text.quoted text
  | unknownFeature name => "unknown feature: " ++ name
  | noUserId => "whoami response has no user_id"
  | noRoomId => "createRoom response has no room_id"
  | noHierarchyEntry roomId => "no hierarchy entry for " ++ roomId
  | noJoinedMap => "joined_members response has no joined map"
  | noContentUri => "media create response has no content_uri"
  | scripted text => text

def Failure.message : Failure → String
  | noCommonVersion serverUrl offered =>
    "no supported Matrix API versions in common with " ++ serverUrl ++ " (server offers " ++
      Text.quotedList offered ++ ")"
  | transport fault => "transport error: " ++ fault.text
  | protocol fault => "protocol error: " ++ fault.text
  | httpStatus status path _ =>
    "homeserver returned HTTP " ++ Decimal.numeral status.toNat ++ " for " ++ path
  | unsupportedFeature requirement =>
    "feature not implemented by this Matrix client: " ++ requirement.text
  | authExpired => "refresh token rejected by the homeserver"
  | versionTooLow required actual =>
    "Matrix API version " ++ required.text ++ " or higher is required (negotiated " ++
      actual.text ++ ")"
  | missingAccessToken => "no access token available for an authorized command"
  | catalog fault => "malformed version catalog: " ++ fault.text
  | invalidUrl fault => "invalid url: " ++ fault.text
  | invalidUserId fault => "invalid user id: " ++ fault.text

def Response.decode {α : Type} (r : Response) (read? : List UInt8 → Option α) : Except Failure α :=
  match read? r.body with
  | some value => .ok value
  | none => .error (.protocol .malformedJson)

end MatrixSession
