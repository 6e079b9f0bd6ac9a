import MatrixSession.Http.Basic
import MatrixSession.Lock

/-!
Scripts for a homeserver, a token store and the locks around a session. Everything that a session
meets is written down beforehand: replies are taken from queues whose last entry stays, and each
reply may change the tokens from outside.
-/
namespace MatrixSession.Scenario

/-- The next entry of a queue, and the queue after it. The last entry is never used up. -/
def nextEntry {α : Type} : List α → Option α × List α
  | [] => (none, [])
  | [last] => (some last, [last])
  | entry :: rest => (some entry, rest)

/-- A change from outside to the stored tokens and to the token that the server takes as valid.
    What is absent stays; `some none` takes a token away. -/
structure Change where
  access : Option (Option String)
  refresh : Option (Option String)
  valid : Option (Option String)
  deriving DecidableEq, Repr

def Change.none : Change := ⟨.none, .none, .none⟩

/-- What comes back for a request, and after which time. The change happens at once. -/
structure Reply where
  delivery : Http.Delivery
  change : Change
  delay : Nat

def Reply.plain (status : UInt16) (body : String) : Reply :=
  ⟨.complete ⟨status, Utf8.encode body⟩, .none, 0⟩

def Reply.unknownToken : Reply := .plain 401 "\x7b\x22errcode\x22:\x22M_UNKNOWN_TOKEN\x22\x7d"

def Reply.unrecognized : Reply := .plain 404 "\x7b\x22errcode\x22:\x22M_UNRECOGNIZED\x22\x7d"

/-- How an attempt at a lock goes: it is denied, or the lock itself decides. The change happens
    when the attempt has ended. -/
structure LockTurn where
  denied : Bool
  change : Change

def LockTurn.plain : LockTurn := ⟨false, .none⟩

inductive RequestClass where
  | versions
  | refresh
  | other
  deriving DecidableEq, Repr

def RequestClass.ofPath (path : String) : RequestClass :=
  if "/_matrix/client/versions".toList.isSuffixOf path.toList then versions
  else if "/_matrix/client/v3/refresh".toList.isSuffixOf path.toList then refresh
  else other

structure Replies where
  versions : List Reply
  refresh : List Reply
  other : List Reply

def Replies.next (r : Replies) : RequestClass → Option Reply × Replies
  | .versions =>
    let (reply, rest) := nextEntry r.versions
    (reply, { r with versions := rest })
  | .refresh =>
    let (reply, rest) := nextEntry r.refresh
    (reply, { r with refresh := rest })
  | .other =>
    let (reply, rest) := nextEntry r.other
    (reply, { r with other := rest })

inductive Link where
  | direct
  | http (listening : Bool)
  deriving DecidableEq, Repr

inductive Event where
  | sent (command : Command) (options : SendOptions)
  | requested (request : Http.Request)
  | tokenSet (kind : TokenKind) (token : String)
  | lockTried (lock : String) (timeout : Nat) (granted : Bool)
  | unlocked (lock : String)

end MatrixSession.Scenario
