import MatrixSession.Client.Errand
import MatrixSession.Proofs.Transcript

/-!
Every errand of a client is one command: it is prepared, executed, and its response is read. Only the
execution has to do with the surroundings.
-/
namespace MatrixSession

namespace Client

def prepare (c : Client) (e : Endpoint) : Except Failure Command := do
  c.allow e
  e.build c.server

end Client

def Errand.command? (c : Client) (errand : Errand) : Except Failure Command :=
  match errand with
  | .execute command => .ok command
  | .whoami => c.prepare .whoami
  | .createRoom params => c.prepare (.createRoom params)
  | .roomInfo roomId => c.prepare (.roomInfo roomId)
  | .roomMembers roomId => c.prepare (.roomMembers roomId)
  | .setRoomTopic roomId topic => c.prepare (.roomTopic roomId topic)
  | .invite roomId userId => c.prepare (.invite roomId userId)
  | .createMedia => c.prepare .mediaCreate

namespace Errand

def textUnder (key : String) (missing : ProtocolFault) (body : Json.Value) :
    Except Failure String :=
  ((body.member? key).bind Json.Value.string?).elim (.error (.protocol missing)) .ok

def firstRoom (roomId : String) (body : Json.Value) : Except Failure Json.Value :=
  (((body.member? "rooms").bind Json.Value.array?).bind List.head?).elim
    (.error (.protocol (.noHierarchyEntry roomId))) .ok

def joinedKeys (body : Json.Value) : Except Failure (List String) :=
  ((body.member? "joined").bind Json.Value.object?).elim (.error (.protocol .noJoinedMap))
    fun members => .ok (members.map (·.1))

def read : Errand → Command → Response → Except Failure Yield
  | execute _, _, response => .ok (.response response)
  | whoami, command, response =>
    .text <$> (Client.successBody command response >>= textUnder "user_id" .noUserId)
  | createRoom _, command, response =>
    .text <$> (Client.successBody command response >>= textUnder "room_id" .noRoomId)
  | roomInfo roomId, command, response =>
    .value <$> (Client.successBody command response >>= firstRoom roomId)
  | roomMembers _, command, response =>
    .texts <$> (Client.successBody command response >>= joinedKeys)
  | setRoomTopic .., command, response | invite .., command, response =>
    (fun _ => .nothing) <$> Client.successBody command response
  | createMedia, command, response =>
    .text <$> (Client.successBody command response >>= textUnder "content_uri" .noContentUri)

end Errand

namespace Call

variable {α β : Type}

theorem ofExcept_bind (x : Except Failure α) (f : α → Except Failure β) :
    (do let a ← ofExcept x; ofExcept (f a)) = ofExcept (x >>= f) := by
  cases x with
  | error failure => rfl
  | ok a => rfl

theorem map_ofExcept (g : α → β) (x : Except Failure α) : g <$> ofExcept x = ofExcept (g <$> x) := by
  cases x with
  | error failure => rfl
  | ok a => rfl

end Call

namespace Client

variable (c : Client)

def executing {α : Type} (prepared : Except Failure Command)
    (read : Command → Response → Except Failure α) : Call α := do
  let command ← Call.ofExcept prepared
  let response ← c.execute command
  Call.ofExcept (read command response)

section Executing

variable {α β : Type} (prepared : Except Failure Command)
  (read : Command → Response → Except Failure α)

theorem map_executing (g : α → β) :
    g <$> c.executing prepared read =
      c.executing prepared fun command response => g <$> read command response := by
  simp only [executing, map_bind, Call.map_ofExcept]

theorem executing_bind (more : α → Except Failure β) :
    (c.executing prepared read >>= fun a => Call.ofExcept (more a)) =
      c.executing prepared fun command response => read command response >>= more := by
  simp only [executing, bind_assoc, Call.ofExcept_bind]

end Executing

theorem request_executing (e : Endpoint) : c.request e = c.executing (c.prepare e) successBody := by
  unfold request executing prepare
  cases c.allow e with
  | error failure => rfl
  | ok allowed => rfl

theorem map_request {α : Type} (e : Endpoint) (more : Json.Value → Except Failure α)
    (g : α → Errand.Yield) :
    g <$> (c.request e >>= fun body => Call.ofExcept (more body)) =
      c.executing (c.prepare e) fun command response =>
        g <$> (successBody command response >>= more) := by
  rw [request_executing, executing_bind, map_executing]

theorem perform_executing (errand : Errand) :
    c.perform errand = c.executing (errand.command? c) errand.read := by
  have unread (x : Except Failure Json.Value) :
      (fun _ => .nothing) <$> (x >>= fun _ => .ok ()) = (fun _ => Errand.Yield.nothing) <$> x := by
    cases x <;> rfl
  cases errand with
  | execute command => exact map_eq_pure_bind _ _
  | whoami => exact c.map_request .whoami (Errand.textUnder "user_id" .noUserId) .text
  | createRoom params =>
    exact c.map_request (.createRoom params) (Errand.textUnder "room_id" .noRoomId) .text
  | roomInfo roomId => exact c.map_request (.roomInfo roomId) (Errand.firstRoom roomId) .value
  | roomMembers roomId => exact c.map_request (.roomMembers roomId) Errand.joinedKeys .texts
  | setRoomTopic roomId topic =>
    refine (c.map_request (.roomTopic roomId topic) (fun _ => .ok ()) _).trans ?_
    exact congrArg _ (funext fun _ => funext fun _ => unread _)
  | invite roomId userId =>
    refine (c.map_request (.invite roomId userId) (fun _ => .ok ()) _).trans ?_
    exact congrArg _ (funext fun _ => funext fun _ => unread _)
  | createMedia =>
    exact c.map_request .mediaCreate (Errand.textUnder "content_uri" .noContentUri) .text

section Runs

variable {σ : Type} (answer : (op : Operation) → σ → op.Reply × σ) (errand : Errand) (s : σ)

theorem perform_unprepared {failure : Failure} (unprepared : errand.command? c = .error failure) :
    (c.perform errand).run.transcript answer s = [] ∧
      ((c.perform errand).run.run answer s).2 = s := by
  rw [perform_executing, unprepared]
  exact ⟨rfl, rfl⟩

theorem perform_prepared {command : Command} (prepared : errand.command? c = .ok command) :
    (c.perform errand).run.transcript answer s = (c.execute command).run.transcript answer s ∧
      ((c.perform errand).run.run answer s).2 = ((c.execute command).run.run answer s).2 := by
  rw [perform_executing, prepared]
  exact ⟨Procedure.transcript_read answer _ _ s, Procedure.run_read answer _ _ s⟩

theorem perform_result :
    ((c.perform errand).run.run answer s).1 =
      errand.command? c >>= fun command =>
        ((c.execute command).run.run answer s).1 >>= errand.read command := by
  rw [perform_executing]
  cases errand.command? c with
  | error failure => rfl
  | ok command => exact Procedure.result_read answer _ _ s

end Runs

end Client

end MatrixSession
