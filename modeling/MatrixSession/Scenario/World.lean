import MatrixSession.Client.Errand
import MatrixSession.Scenario.Script

/-!
A scripted world, and procedures run in it one at a time. Nobody else works in the world between
two steps, except for the changes that its script makes.
-/
namespace MatrixSession.Scenario

structure World where
  link : Link
  tokens : TokenPair
  valid : Option String
  replies : Replies
  lockTurns : List LockTurn
  locks : LockTable
  cache : VersionCache
  events : List Event

namespace World

variable {α : Type}

def record (w : World) (e : Event) : World := { w with events := w.events ++ [e] }

def apply (w : World) (c : Change) : World :=
  { w with
    tokens := ⟨c.access.getD w.tokens.access, c.refresh.getD w.tokens.refresh⟩
    valid := c.valid.getD w.valid }

/-- The server refuses the token of a command. Only requests of the class `other` need one, and
    only while some token is valid. -/
def Refuses (w : World) (c : Command) : Prop :=
  RequestClass.ofPath c.path = .other ∧ w.valid ≠ none ∧ c.bearer? ≠ w.valid

instance (w : World) (c : Command) : Decidable (w.Refuses c) :=
  inferInstanceAs (Decidable (_ ∧ _ ∧ _))

/-- The reply to a command, and the world with the reply's change. A refusal uses up no reply. -/
def reply (w : World) (c : Command) : Reply × World :=
  if w.Refuses c then (.unknownToken, w)
  else
    let (reply, replies) := w.replies.next (RequestClass.ofPath c.path)
    let reply := reply.getD .unrecognized
    (reply, { w with replies }.apply reply.change)

def exchange (w : World) (c : Command) (options : SendOptions) : Reply × World :=
  match w.link with
  | .direct => (w.record (.sent c options)).reply c
  | .http listening =>
    match Http.Request.ofCommand? c with
    | some request =>
      if listening then (w.record (.requested request)).reply c
      else (⟨.failed .http, .none, 0⟩, w)
    | none => (⟨.failed .http, .none, 0⟩, w)

def endLockTry (w : World) (lock : String) (timeout : Nat) (turn : LockTurn) (granted : Bool) :
    World :=
  (w.record (.lockTried lock timeout granted)).apply turn.change

def nextLockTurn (w : World) : LockTurn × World :=
  let (turn, rest) := nextEntry w.lockTurns
  (turn.getD .plain, { w with lockTurns := rest })

/-- Answers one operation. Cached results do not grow older, and delays are not waited for. -/
def answer (who : Nat) : (op : Operation) → World → op.Reply × World
  | .readToken kind, w => (w.tokens.get kind, w)
  | .writeToken kind token, w =>
    ((), { w with tokens := w.tokens.put kind (some token) }.record (.tokenSet kind token))
  | .send command options, w =>
    let (reply, w) := w.exchange command options
    (reply.delivery.result options command.path, w)
  | .acquire lock timeout, w =>
    let (turn, w) := w.nextLockTurn
    if turn.denied then (false, w.endLockTry lock timeout turn false)
    else
      let (granted, locks) := w.locks.tryAcquire lock who
      (granted, { w with locks }.endLockTry lock timeout turn granted)
  | .release lock, w => ((), { w with locks := w.locks.release lock }.record (.unlocked lock))
  | .consult key maxAge, w => (w.cache.lookup 0 key maxAge, w)
  | .remember key supports, w => ((), { w with cache := w.cache.store 0 key supports })

def perform (w : World) (call : Call α) : Except Failure α × World :=
  Procedure.run (answer 0) call.run w

def session (c : Client) : List Errand → World → List (Except Failure Errand.Yield) × World
  | [], w => ([], w)
  | errand :: errands, w =>
    let (result, w) := w.perform (c.perform errand)
    let (results, w) := session c errands w
    (result :: results, w)

def takeEvents (w : World) : List Event × World := (w.events, { w with events := [] })

end World

end MatrixSession.Scenario
