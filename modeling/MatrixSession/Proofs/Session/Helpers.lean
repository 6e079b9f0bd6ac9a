import MatrixSession.Proofs.Execution.Outcome
import MatrixSession.Proofs.Json.Ordered
import MatrixSession.Proofs.Session.Intact

/-!
What the helpers of a client return. A success is read from the last reply of all, which answers the
helper's own endpoint; a status that is reported is the status of the last reply to that endpoint.
-/
namespace MatrixSession

def ReportsNoStatus {α : Type} (result : Except Failure α) : Prop :=
  ∀ status path body, result ≠ .error (.httpStatus status path body)

section Statuses

variable {α β : Type} {x : Except Failure α}

theorem no_status_bind {f : α → Except Failure β} (first : ReportsNoStatus x)
    (rest : ∀ a, ReportsNoStatus (f a)) : ReportsNoStatus (x >>= f) := by
  cases x with
  | ok a => exact rest a
  | error failure =>
    intro status path body same
    exact first status path body (congrArg Except.error (Except.error.inj same))

theorem no_status_elim {fault : ProtocolFault} (f : α → β) (found : Option α) :
    ReportsNoStatus (found.elim (.error (.protocol fault)) fun a => .ok (f a)) := by
  cases found <;> exact fun _ _ _ => nofun

theorem status_bind {f : α → Except Failure β} (silent : ∀ a, ReportsNoStatus (f a))
    {status : UInt16} {path body : String}
    (reported : (x >>= f) = .error (.httpStatus status path body)) :
    x = .error (.httpStatus status path body) := by
  cases x with
  | ok a => exact absurd reported (silent a status path body)
  | error failure => exact congrArg Except.error (Except.error.inj reported)

theorem map_eq_error {g : α → β} {failure : Failure} (failed : g <$> x = .error failure) :
    x = .error failure := by
  cases x with
  | ok a => contradiction
  | error failure => exact congrArg Except.error (Except.error.inj failed)

theorem map_eq_ok {g : α → β} {result : β} (ended : g <$> x = .ok result) :
    ∃ a, x = .ok a ∧ g a = result := by
  cases x with
  | error failure => contradiction
  | ok a => exact ⟨a, rfl, Except.ok.inj ended⟩

theorem map_bind_eq_ok {γ : Type} {f : α → Except Failure β} {g : β → γ} {result : γ}
    (ended : g <$> (x >>= f) = .ok result) : ∃ a b, x = .ok a ∧ f a = .ok b ∧ g b = result := by
  obtain ⟨b, inner, same⟩ := map_eq_ok ended
  cases x with
  | error failure => contradiction
  | ok a => exact ⟨a, b, rfl, inner, same⟩

theorem elim_eq_ok {fault : ProtocolFault} {f : α → β} {found : Option α} {b : β}
    (ended : (found.elim (.error (.protocol fault)) fun a => .ok (f a) : Except Failure β) = .ok b) :
    ∃ a, found = some a ∧ f a = b := by
  cases found with
  | none => contradiction
  | some a => exact ⟨a, rfl, Except.ok.inj ended⟩

end Statuses

namespace Endpoint

theorem build_cases (e : Endpoint) (server : Url) :
    e.build server = .error (.invalidUrl .cannotBeBase) ∨
      ∃ command, e.build server = .ok command ∧ command.requiresAuth = !e.isPublic := by
  have asked (pairs : List (String × String)) (c : Command) :
      (pairs.foldl (fun c pair => c.withQuery pair.1 pair.2) c).requiresAuth =
        c.requiresAuth := by
    induction pairs generalizing c with
    | nil => rfl
    | cons pair pairs ih => exact ih (c.withQuery pair.1 pair.2)
  unfold build command Command.new
  cases server.withSegments? e.segments with
  | none => exact .inl rfl
  | some url =>
    refine .inr ⟨_, rfl, ?_⟩
    cases e.isPublic with
    | true => rfl
    | false => cases e.body? <;> exact asked e.query _

theorem build_reports_no_status (e : Endpoint) (server : Url) :
    ReportsNoStatus (e.build server) := by
  obtain unbuilt | ⟨command, built, -⟩ := e.build_cases server
  · rw [unbuilt]
    exact fun _ _ _ => nofun
  · rw [built]
    exact fun _ _ _ => nofun

end Endpoint

theorem RefreshBuilder.standard_reports_no_status (server : Url) (token : String) :
    ReportsNoStatus (standard server token) :=
  (Endpoint.refresh token).build_reports_no_status server

namespace Client

variable {c : Client} {e : Endpoint} {command : Command}

theorem built_of_prepare (prepared : c.prepare e = .ok command) : e.build c.server = .ok command := by
  unfold prepare at prepared
  cases allowed : c.allow e with
  | error failure =>
    rw [allowed] at prepared
    contradiction
  | ok _ =>
    rw [allowed] at prepared
    exact prepared

theorem prepare_reports_no_status (c : Client) (e : Endpoint) : ReportsNoStatus (c.prepare e) := by
  have versioned (required : ApiVersion) : ReportsNoStatus (c.requireVersion required) := by
    unfold requireVersion
    split <;> exact fun _ _ _ => nofun
  have featured (f : Feature) : ReportsNoStatus (c.require (.one f)) := by
    unfold require
    split <;> exact fun _ _ _ => nofun
  have optional {α : Type} (found : Option α) {check : α → Except Failure Unit}
      (each : ∀ a, ReportsNoStatus (check a)) : ReportsNoStatus (found.forM check) := by
    cases found with
    | none => exact fun _ _ _ => nofun
    | some a => exact each a
  exact no_status_bind (no_status_bind (optional _ versioned) fun _ => optional _ featured)
    fun _ => e.build_reports_no_status c.server

theorem success_body_cases (command : Command) (response : Response) :
    response.isSuccess = false ∧ successBody command response =
        .error (.httpStatus response.status command.path response.text) ∨
      response.isSuccess = true ∧
        (response.body = [] ∧ successBody command response = .ok .null ∨
          (∃ body, Json.Value.ofBytes? response.body = some body ∧
            successBody command response = .ok body) ∨
          successBody command response = .error (.protocol .malformedJson)) := by
  unfold successBody
  cases response.isSuccess with
  | false => exact .inl ⟨rfl, rfl⟩
  | true =>
    refine .inr ⟨rfl, ?_⟩
    cases empty : response.body.isEmpty with
    | true => exact .inl ⟨List.isEmpty_iff.mp empty, rfl⟩
    | false =>
      unfold Response.decode
      cases Json.Value.ofBytes? response.body with
      | none => exact .inr (.inr rfl)
      | some body => exact .inr (.inl ⟨body, rfl, rfl⟩)

theorem success_body_eq_ok {response : Response} {body : Json.Value}
    (read : successBody command response = .ok body) :
    response.isSuccess = true ∧
      (response.body = [] ∧ body = .null ∨ Json.Value.ofBytes? response.body = some body) := by
  obtain ⟨-, failed⟩ | ⟨success, ⟨empty, null⟩ | ⟨found, decoded, some⟩ | failed⟩ :=
    success_body_cases command response
  · exact nomatch failed.symm.trans read
  · exact ⟨success, .inl ⟨empty, Except.ok.inj (read.symm.trans null)⟩⟩
  · obtain rfl := Except.ok.inj (some.symm.trans read)
    exact ⟨success, .inr decoded⟩
  · exact nomatch failed.symm.trans read

theorem success_body_eq_status {response : Response} {status : UInt16} {path body : String}
    (read : successBody command response = .error (.httpStatus status path body)) :
    response.isSuccess = false ∧ status = response.status ∧ path = command.path ∧
      body = response.text := by
  obtain ⟨failed, same⟩ | ⟨-, ⟨-, null⟩ | ⟨_, -, some⟩ | failed⟩ :=
    success_body_cases command response
  · rw [same] at read
    cases read
    exact ⟨failed, rfl, rfl, rfl⟩
  · exact nomatch null.symm.trans read
  · exact nomatch some.symm.trans read
  · exact nomatch failed.symm.trans read

end Client

namespace Errand

/-- In the document there is this value under the key. -/
def Holds (document : List UInt8) (key : String) (value : Json.Value) : Prop :=
  ∃ body, Json.Value.ofBytes? document = some body ∧ body.member? key = some value

/-- What a helper returns for a document. -/
def Yields (document : List UInt8) : Errand → Yield → Prop
  | whoami, .text id => Holds document "user_id" (.string id)
  | createRoom _, .text id => Holds document "room_id" (.string id)
  | roomInfo _, .value room => ∃ rooms, Holds document "rooms" (.array (room :: rooms))
  | roomMembers _, .texts ids =>
    ids.Nodup ∧ ∃ members, Holds document "joined" (.object members) ∧ ids = members.map (·.1)
  | setRoomTopic .., .nothing | invite .., .nothing =>
    document = [] ∨ ∃ body, Json.Value.ofBytes? document = some body
  | createMedia, .text uri => Holds document "content_uri" (.string uri)
  | _, _ => False

variable {errand : Errand} {e : Endpoint} {command : Command} {response : Response}

theorem command_of_helper (c : Client) (helper : errand.endpoint? = some e) :
    errand.command? c = c.prepare e := by
  cases errand <;> cases helper <;> rfl

theorem helper_needs_token (helper : errand.endpoint? = some e) : e.isPublic = false := by
  cases errand <;> cases helper <;> rfl

theorem read_eq_status (helper : errand.endpoint? = some e) {status : UInt16} {path body : String}
    (read : errand.read command response = .error (.httpStatus status path body)) :
    response.isSuccess = false ∧ status = response.status ∧ path = command.path ∧
      body = response.text := by
  apply Client.success_body_eq_status
  cases errand with
  | execute sent => contradiction
  | whoami | createRoom | createMedia =>
    exact status_bind (fun body => no_status_elim id _) (map_eq_error read)
  | roomInfo roomId => exact status_bind (fun body => no_status_elim id _) (map_eq_error read)
  | roomMembers roomId => exact status_bind (fun body => no_status_elim _ _) (map_eq_error read)
  | setRoomTopic | invite => exact map_eq_error read

theorem holds_of_member {body : Json.Value} {key : String} {value : Json.Value}
    (opened : Client.successBody command response = .ok body)
    (member : body.member? key = some value) :
    response.isSuccess = true ∧ Holds response.body key value := by
  obtain ⟨success, ⟨-, rfl⟩ | decoded⟩ := Client.success_body_eq_ok opened
  · contradiction
  · exact ⟨success, body, decoded, member⟩

theorem text_of_read {key text : String} {missing : ProtocolFault} {body : Json.Value}
    (opened : Client.successBody command response = .ok body)
    (under : textUnder key missing body = .ok text) :
    response.isSuccess = true ∧ Holds response.body key (.string text) := by
  obtain ⟨text, found, rfl⟩ := elim_eq_ok under
  obtain ⟨value, member, string⟩ := Option.bind_eq_some_iff.mp found
  cases value with
  | string text' =>
    obtain rfl := Option.some.inj string
    exact holds_of_member opened member
  | _ => contradiction

theorem first_room_of_read {roomId : String} {room body : Json.Value}
    (opened : Client.successBody command response = .ok body)
    (first : firstRoom roomId body = .ok room) :
    response.isSuccess = true ∧ ∃ rooms, Holds response.body "rooms" (.array (room :: rooms)) := by
  obtain ⟨room, found, rfl⟩ := elim_eq_ok first
  obtain ⟨rooms, found, head⟩ := Option.bind_eq_some_iff.mp found
  obtain ⟨value, member, array⟩ := Option.bind_eq_some_iff.mp found
  cases value with
  | array items =>
    obtain rfl := Option.some.inj array
    obtain ⟨rooms, rfl⟩ := List.head?_eq_some_iff.mp head
    obtain ⟨success, holds⟩ := holds_of_member opened member
    exact ⟨success, rooms, holds⟩
  | _ => contradiction

theorem joined_of_read {ids : List String} {body : Json.Value}
    (opened : Client.successBody command response = .ok body)
    (keys : joinedKeys body = .ok ids) :
    response.isSuccess = true ∧ ids.Nodup ∧
      ∃ members, Holds response.body "joined" (.object members) ∧ ids = members.map (·.1) := by
  obtain ⟨members, found, rfl⟩ := elim_eq_ok keys
  obtain ⟨value, member, object⟩ := Option.bind_eq_some_iff.mp found
  cases value with
  | object members' =>
    obtain rfl := Option.some.inj object
    obtain ⟨success, body, decoded, member⟩ := holds_of_member opened member
    have ordered := (Json.Value.ofBytes_ordered decoded).member member
    exact ⟨success, ordered.keys_nodup, _, ⟨body, decoded, member⟩, rfl⟩
  | _ => contradiction

theorem read_eq_ok (helper : errand.endpoint? = some e) {yield : Yield}
    (read : errand.read command response = .ok yield) :
    response.isSuccess = true ∧ errand.Yields response.body yield := by
  cases errand with
  | execute sent => contradiction
  | whoami | createRoom | createMedia =>
    obtain ⟨body, text, opened, under, rfl⟩ := map_bind_eq_ok read
    exact text_of_read opened under
  | roomInfo roomId =>
    obtain ⟨body, room, opened, first, rfl⟩ := map_bind_eq_ok read
    exact first_room_of_read opened first
  | roomMembers roomId =>
    obtain ⟨body, ids, opened, keys, rfl⟩ := map_bind_eq_ok read
    exact joined_of_read opened keys
  | setRoomTopic | invite =>
    obtain ⟨body, opened, rfl⟩ := map_eq_ok read
    obtain ⟨success, ⟨empty, -⟩ | decoded⟩ := Client.success_body_eq_ok opened
    · exact ⟨success, .inl empty⟩
    · exact ⟨success, .inr ⟨body, decoded⟩⟩

theorem read_failed (helper : errand.endpoint? = some e) (failed : response.isSuccess = false) :
    errand.read command response =
      .error (.httpStatus response.status command.path response.text) := by
  have body : Client.successBody command response =
      .error (.httpStatus response.status command.path response.text) := by
    rw [Client.successBody, failed]
    rfl
  cases errand with
  | execute sent => contradiction
  | _ =>
    simp only [read, body]
    rfl

end Errand

theorem Response.success_iff {response : Response} :
    response.isSuccess = true ↔ 200 ≤ response.status ∧ response.status < 300 := by
  simp [isSuccess]

namespace Scenario

theorem World.status_reported {w : World} {who : Nat} {command : Command} {options : SendOptions}
    {status : UInt16} {path body : String}
    (reported : (World.answer who (.send command options) w).1 =
      .error (.httpStatus status path body)) : options.statusErrors = true := by
  simp only [World.answer] at reported
  cases arrived : (w.exchange command options).1.delivery with
  | failed fault =>
    rw [arrived, Http.Delivery.result] at reported
    cases reported
  | broken code =>
    rw [arrived, Http.Delivery.result] at reported
    cases reported
  | complete response =>
    rw [arrived, Http.Delivery.result, SendOptions.accept] at reported
    split at reported
    · rename_i judged
      exact (Bool.and_eq_true_iff.mp judged).1
    · contradiction

/-- The status, the path and the text are those of the last reply to an attempt at the command; only
the refresh request may have been sent after it. -/
def Answered (c : Client) (command : Command) (status : UInt16) (path body : String)
    (transcript : List Exchange) : Prop :=
  ∃ token response earlier later,
    transcript.filterMap Exchange.request? =
      earlier ++ (command.withBearer token, .ok response) :: later ∧
    Client.Course.RefreshAtMost c later ∧ ¬ (200 ≤ status ∧ status < 300) ∧
    status = response.status ∧ path = command.path ∧ body = Utf8.lossy response.body

/-- The only attempt at the command is rejected, and from the refresh token that is read then the
client's builder cannot make a refresh request. -/
def Unspent (c : Client) (command : Command) (failure : Failure) (transcript : List Exchange) :
    Prop :=
  ∃ token rejection spent,
    transcript.filterMap Exchange.request? = [(command.withBearer token, .ok rejection)] ∧
    rejection.status = 401 ∧ (⟨.readToken .refresh, some spent⟩ : Exchange) ∈ transcript ∧
    c.refreshBuilder c.server spent = .error failure

section Helpers

variable (c : Client) {errand : Errand} {e : Endpoint} (helper : errand.endpoint? = some e)
  (w : World)
include helper

theorem helper_unprepared {failure : Failure} (unprepared : c.prepare e = .error failure) :
    (w.perform (c.perform errand)).1 = .error failure := by
  rw [World.perform, c.perform_result, errand.command_of_helper c helper, unprepared]
  rfl

theorem helper_course {command : Command} (prepared : c.prepare e = .ok command) :
    e.build c.server = .ok command ∧ command.requiresAuth = true ∧ ∃ a : Client.Course,
      (c.perform errand).run.transcript (World.answer 0) w =
        a.opening c command ++ (a.locking c command ++ a.closing c command) ∧
      (w.perform (c.perform errand)).1 = a.outcome c command >>= errand.read command := by
  have built := Client.built_of_prepare prepared
  have authorized : command.requiresAuth = true := by
    obtain unbuilt | ⟨command', built', needed⟩ := e.build_cases c.server
    · exact nomatch unbuilt.symm.trans built
    · obtain rfl := Except.ok.inj (built'.symm.trans built)
      rw [needed, Errand.helper_needs_token helper]
      rfl
  have prepared := (errand.command_of_helper c helper).trans prepared
  obtain ⟨a, asked, ended⟩ := Client.execute_course c command (World.answer 0) w
  refine ⟨built, authorized, a, (c.perform_prepared _ errand w prepared).1.trans asked, ?_⟩
  rw [World.perform, c.perform_result, prepared]
  exact congrArg (· >>= errand.read command) ended

theorem helper_succeeds {yield : Errand.Yield}
    (ended : (w.perform (c.perform errand)).1 = .ok yield) :
    ∃ command token response earlier,
      e.build c.server = .ok command ∧
      ((c.perform errand).run.transcript (World.answer 0) w).filterMap Exchange.request? =
        earlier ++ [(command.withBearer token, .ok response)] ∧
      response.isSuccess = true ∧ errand.Yields response.body yield := by
  cases prepared : c.prepare e with
  | error failure => exact nomatch (helper_unprepared c helper w prepared).symm.trans ended
  | ok command =>
    obtain ⟨built, authorized, a, asked, result⟩ := helper_course c helper w prepared
    rw [result] at ended
    cases outcome : a.outcome c command with
    | error failure =>
      rw [outcome] at ended
      contradiction
    | ok response =>
      rw [outcome] at ended
      obtain ⟨success, yields⟩ := errand.read_eq_ok helper ended
      obtain ⟨token, earlier, later, requests, -, last⟩ :=
        Client.Course.attempted_of_outcome authorized outcome
      -- A success is no rejection, so nothing was sent after it.
      have accepted : response.status ≠ 401 := by
        intro rejected
        simp [Response.isSuccess, rejected] at success
      obtain rfl := last.resolve_left accepted
      refine ⟨command, token, response, earlier, built, ?_, success, yields⟩
      rw [asked, Client.Course.requests_replied, requests]

theorem helper_reports_status {status : UInt16} {path body : String}
    (ended : (w.perform (c.perform errand)).1 = .error (.httpStatus status path body)) :
    ∃ command, e.build c.server = .ok command ∧
      (Answered c command status path body
          ((c.perform errand).run.transcript (World.answer 0) w) ∨
        Unspent c command (.httpStatus status path body)
          ((c.perform errand).run.transcript (World.answer 0) w)) := by
  cases prepared : c.prepare e with
  | error failure =>
    obtain rfl := Except.error.inj ((helper_unprepared c helper w prepared).symm.trans ended)
    exact absurd prepared (c.prepare_reports_no_status e _ _ _)
  | ok command =>
    obtain ⟨built, authorized, a, asked, result⟩ := helper_course c helper w prepared
    refine ⟨command, built, ?_⟩
    rw [result] at ended
    cases outcome : a.outcome c command with
    | ok response =>
      rw [outcome] at ended
      obtain ⟨failed, rfl, rfl, rfl⟩ := errand.read_eq_status helper ended
      obtain ⟨token, earlier, later, requests, refresh, -⟩ :=
        Client.Course.attempted_of_outcome authorized outcome
      refine .inl ⟨token, response, earlier, later, ?_, refresh, ?_, rfl, rfl, rfl⟩
      · rw [asked, Client.Course.requests_replied, requests]
      · intro success
        exact Bool.false_ne_true (failed.symm.trans (Response.success_iff.mpr success))
    | error failure =>
      rw [outcome] at ended
      obtain rfl := Except.error.inj ended
      obtain own | unbuilt | ⟨request, sent⟩ := Client.Course.outcome_failed authorized outcome
      · contradiction
      · obtain ⟨token, rejection, spent, requests, rejected, read, refused⟩ :=
          Client.Course.unbuilt_replied unbuilt
        refine .inr ⟨token, rejection, spent, ?_, rejected, ?_, refused⟩
        · rw [asked, Client.Course.requests_replied, requests]
        · rw [asked]
          exact List.mem_append_right _ (List.mem_append_left _ read)
      · rw [← asked] at sent
        obtain ⟨w', reported⟩ := Procedure.mem_transcript (World.answer 0) sent
        exact absurd (World.status_reported reported) (by simp [Client.options])

theorem helper_degrades {command : Command} (prepared : c.prepare e = .ok command) :
    ∃ a : Client.Course,
      (c.perform errand).run.transcript (World.answer 0) w =
        a.opening c command ++ (a.locking c command ++ a.closing c command) ∧
      ∀ rejection, a.Degraded c command rejection →
        (w.perform (c.perform errand)).1 =
          .error (.httpStatus 401 command.path (Utf8.lossy rejection.body)) := by
  obtain ⟨-, -, a, asked, result⟩ := helper_course c helper w prepared
  refine ⟨a, asked, fun rejection degraded => ?_⟩
  obtain ⟨outcome, rejected⟩ := Client.Course.outcome_degraded degraded
  have failed : rejection.isSuccess = false := by simp [Response.isSuccess, rejected]
  rw [result, outcome, ← rejected]
  exact errand.read_failed helper failed

/-- A helper returns what it reads from the reply to its own endpoint, and that reply is the last one
of all. A status that it reports is the one of the last reply to the endpoint, whatever the reply to the
refresh request was, and a rejection that cannot be overcome is reported in this way. It is otherwise
only where a builder of refresh requests fails: its failure is handed on, even if it is a status. The
standard one never fails with a status. -/
theorem helpers_answer_from_endpoint :
    let result := (w.perform (c.perform errand)).1
    let transcript := (c.perform errand).run.transcript (World.answer 0) w
    (∀ yield, result = .ok yield → ∃ command token response earlier,
      e.build c.server = .ok command ∧
      transcript.filterMap Exchange.request? =
        earlier ++ [(command.withBearer token, .ok response)] ∧
      (command.withBearer token).bearer? = some token ∧
      200 ≤ response.status ∧ response.status < 300 ∧ errand.Yields response.body yield) ∧
    (∀ status path body, result = .error (.httpStatus status path body) →
      ∃ command, e.build c.server = .ok command ∧
        (Answered c command status path body transcript ∨
          c.refreshBuilder ≠ .standard ∧
            Unspent c command (.httpStatus status path body) transcript)) ∧
    ∀ command, c.prepare e = .ok command → ∃ a : Client.Course,
      transcript = a.opening c command ++ (a.locking c command ++ a.closing c command) ∧
      ∀ rejection, a.Degraded c command rejection →
        result = .error (.httpStatus 401 command.path (Utf8.lossy rejection.body)) := by
  intro result transcript
  refine ⟨?succeeds, ?reports, fun command => helper_degrades c helper w⟩
  case succeeds =>
    intro yield ended
    obtain ⟨command, token, response, earlier, built, last, success, yields⟩ :=
      helper_succeeds c helper w ended
    obtain ⟨least, below⟩ := Response.success_iff.mp success
    exact ⟨command, token, response, earlier, built, last, command.bearer_with_bearer token, least,
      below, yields⟩
  case reports =>
    intro status path body ended
    obtain ⟨command, built, answered | unspent⟩ := helper_reports_status c helper w ended
    · exact ⟨command, built, .inl answered⟩
    · refine ⟨command, built, .inr ⟨fun standard => ?_, unspent⟩⟩
      obtain ⟨token, rejection, spent, -, -, -, refused⟩ := unspent
      rw [standard] at refused
      exact RefreshBuilder.standard_reports_no_status _ _ _ _ _ refused

end Helpers

def World.denied : World := { World.expired with tokens := ⟨some "a1", none⟩ }

def failure? {α : Type} : Except Failure α → Option Failure
  | .ok _ => none
  | .error failure => some failure

theorem failure_eq_none {α : Type} {x : Except Failure α} (none : failure? x = none) :
    ∃ a, x = .ok a := by
  cases x with
  | ok a => exact ⟨a, rfl⟩
  | error failure => contradiction

theorem failure_eq_some {α : Type} {x : Except Failure α} {failure : Failure}
    (found : failure? x = some failure) : x = .error failure := by
  cases x with
  | ok a => contradiction
  | error failure' => exact congrArg Except.error (Option.some.inj found)

def World.renewedWith (body : String) : World :=
  { World.expired with replies := { World.expired.replies with other := [.plain 200 body] } }

def equipped : Client := { Client.sample with features := .ofList Feature.all }

/-- Every helper with a body that it can read. -/
def helperBodies : List (Errand × String) :=
  [(.whoami, "\x7b\x22user_id\x22:\x22@me:server\x22\x7d"),
    (.createRoom (.room "x"), "\x7b\x22room_id\x22:\x22!r\x22\x7d"),
    (.roomInfo "!r", "\x7b\x22rooms\x22:[\x7b\x22name\x22:\x22x\x22\x7d,1]\x7d"),
    (.roomMembers "!r", "\x7b\x22joined\x22:\x7b\x22b\x22:0,\x22a\x22:0,\x22b\x22:1\x7d\x7d"),
    (.setRoomTopic "!r" "t", "\x7b\x7d"), (.invite "!r" "@you:server", ""),
    (.createMedia, "\x7b\x22content_uri\x22:\x22mxc://m\x22\x7d")]

/-- After a refresh every helper has its answer, and without one the rejection is reported. -/
theorem helpers_answer_after_refresh :
    let whoami := Client.sample.perform .whoami
    (∀ entry ∈ helperBodies, ∃ (yield : Errand.Yield) (command : Command) (token : String)
        (response : Response) (earlier : List (Command × Except Failure Response)),
      ((World.renewedWith entry.2).perform (equipped.perform entry.1)).1 = .ok yield ∧
      ((equipped.perform entry.1).run.transcript (World.answer 0)
          (World.renewedWith entry.2)).filterMap Exchange.request? =
        earlier ++ [(command.withBearer token, .ok response)] ∧
      entry.1.Yields response.body yield) ∧
    ∃ command body, Endpoint.whoami.build Client.sample.server = .ok command ∧
      (World.denied.perform whoami).1 = .error (.httpStatus 401 command.path body) ∧
      Answered Client.sample command 401 command.path body
        (whoami.run.transcript (World.answer 0) World.denied) := by
  intro whoami
  constructor
  · intro entry mem
    have succeeds : ∀ entry ∈ helperBodies, entry.1.endpoint?.isSome = true ∧
        failure? ((World.renewedWith entry.2).perform (equipped.perform entry.1)).1 = none := by
      decide +kernel
    obtain ⟨e, helper⟩ := Option.isSome_iff_exists.mp (succeeds entry mem).1
    obtain ⟨yield, ended⟩ := failure_eq_none (succeeds entry mem).2
    obtain ⟨command, token, response, earlier, -, last, -, -, -, yields⟩ :=
      (helpers_answer_from_endpoint equipped helper (.renewedWith entry.2)).1 yield ended
    exact ⟨yield, command, token, response, earlier, ended, last, yields⟩
  · have denied : failure? (World.denied.perform whoami).1 =
        some (.httpStatus 401 "/_matrix/client/v3/account/whoami"
          "\x7b\x22errcode\x22:\x22M_UNKNOWN_TOKEN\x22\x7d") := by
      decide +kernel
    have ended := failure_eq_some denied
    have helper : Errand.whoami.endpoint? = some .whoami := rfl
    obtain ⟨command, built, answered | ⟨own, -⟩⟩ :=
      (helpers_answer_from_endpoint Client.sample helper .denied).2.1 _ _ _ ended
    · have same := answered
      obtain ⟨-, -, -, -, -, -, -, -, path, -⟩ := same
      rw [path] at ended answered
      exact ⟨command, _, built, ended, answered⟩
    · exact absurd rfl own

def unspending (failure : Failure) : Client :=
  { Client.sample with refreshBuilder := fun _ _ => .error failure }

/-- A builder's failure takes the place of the rejection, even if it is a success status of some other
path, with which no response came. -/
theorem builder_failure_hides_rejection :
    let whoami (failure : Failure) := (unspending failure).perform .whoami
    let requests (failure : Failure) :=
      ((whoami failure).run.transcript (World.answer 0) World.expired).filterMap Exchange.request?
    ∀ failure ∈ [.httpStatus 200 "/refresh" "spent", .protocol (.scripted "no refresh command")],
      failure? (World.expired.perform (whoami failure)).1 = some failure ∧
        (requests failure).map (fun request => (request.1.path, request.2.toOption.map (·.status))) =
          [("/_matrix/client/v3/account/whoami", some 401)] := by
  decide +kernel

end Scenario

end MatrixSession
