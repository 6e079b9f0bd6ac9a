import MatrixSession.Proofs.Execution.Course

/-!
The protocol of an execution: on which answers a refresh request is sent, on which ones the command is
sent again, and that there are no other requests.
-/
namespace MatrixSession.Client

namespace Course

variable (c : Client) (command : Command) (a : Course)

structure Rejected (token : String) (rejection : Response) : Prop where
  authorized : command.requiresAuth = true
  read : a.access = some token
  answered : a.first = .ok rejection
  unauthorized : rejection.status = 401

structure Locked (token : String) (rejection : Response) : Prop extends
    Rejected command a token rejection where
  refreshable : a.refresh.isSome = true
  feature : c.features.has .refreshTokenV3 = true
  granted : a.granted = true

/-- Under the lock the rejected token is still stored, and a refresh request can be built from the
    refresh token. -/
def Refreshes (request : Command) : Prop :=
  ∃ token rejection spent, Locked c command a token rejection ∧
    a.renewal.current = some token ∧ a.renewal.spent = some spent ∧
    c.refreshBuilder c.server spent = .ok request

def Accepts (tokens : RefreshedTokens) : Prop :=
  ∃ request response, Refreshes c command a request ∧ a.renewal.reply = .ok response ∧
    response.status = 200 ∧ response.decode RefreshedTokens.ofBytes? = .ok tokens

/-- Another caller, or the refresh request, has replaced the token, and one is stored when the
    lock was given back. -/
def Replays (token : String) : Prop :=
  ∃ rejected rejection, Locked c command a rejected rejection ∧
    (a.renewal.current ≠ some rejected ∨ ∃ tokens, Accepts c command a tokens) ∧
    a.replay.token = some token

def requests : List Command :=
  (a.firstRequest? command).toList ++ (a.refreshRequest? c command).toList ++
    (a.replayToken? c command).toList.map command.withBearer

def replied : List (Command × Except Failure Response) :=
  (a.firstRequest? command).toList.map (·, a.first) ++
    ((a.refreshRequest? c command).toList.map (·, a.renewal.reply) ++
      (a.replayToken? c command).toList.map fun token =>
        (command.withBearer token, a.replay.reply))

theorem requests_length : (a.requests c command).length ≤ 3 := by
  have first : (a.firstRequest? command).toList.length ≤ 1 := Option.length_toList_le
  have refresh : (a.refreshRequest? c command).toList.length ≤ 1 := Option.length_toList_le
  have replay : (a.replayToken? c command).toList.length ≤ 1 := Option.length_toList_le
  rw [requests, List.length_append, List.length_append, List.length_map]
  omega

end Course

section Conditions

variable {c : Client} {command : Command} {a : Course}

theorem brought_eq_some {reply : Except Failure Response} {tokens : RefreshedTokens} :
    brought? reply = some tokens ↔
      ∃ response, reply = .ok response ∧ response.status = 200 ∧
        response.decode RefreshedTokens.ofBytes? = .ok tokens := by
  cases reply with
  | error failure => simp [brought?]
  | ok response =>
    cases read : RefreshedTokens.ofBytes? response.body with
    | none => simp [brought?, Response.decode, read]
    | some tokens' => simp [brought?, Response.decode, read]

theorem brought_eq_none {reply : Except Failure Response}
    (failed : ∀ response, reply = .ok response → response.status ≠ 200) : brought? reply = none := by
  cases reply with
  | error failure => rfl
  | ok response => exact if_neg (failed response rfl)

namespace Renewal

variable {r : Renewal} {rejected : String}

theorem request_eq_some {request : Command} :
    r.request? c rejected = some request ↔
      r.current = some rejected ∧
        ∃ spent, r.spent = some spent ∧ c.refreshBuilder c.server spent = .ok request := by
  by_cases same : r.current = some rejected
  · cases spent : r.spent with
    | none => simp [request?, same, spent]
    | some token =>
      cases built : c.refreshBuilder c.server token with
      | error failure => simp [request?, same, spent, built, Except.toOption]
      | ok request' => simp [request?, same, spent, built, Except.toOption]
  · simp [request?, same]

theorem tokens_eq_some {tokens : RefreshedTokens} :
    r.tokens? c rejected = some tokens ↔
      ∃ request, r.request? c rejected = some request ∧ brought? r.reply = some tokens := by
  simp only [tokens?, Option.bind_eq_some_iff]

theorem verdict_eq_true {reply : Except Failure Response} :
    verdict reply = .ok true ↔ ∃ tokens, brought? reply = some tokens := by
  cases brought : brought? reply with
  | some tokens =>
    obtain ⟨response, rfl, success, decoded⟩ := brought_eq_some.mp brought
    simp [verdict, success, decoded, Except.map]
  | none =>
    cases reply with
    | error failure => simp [verdict]
    | ok response =>
      by_cases success : response.status = 200
      · simp_all [brought?, verdict, Response.decode, Except.map]
      · by_cases expired : response.status = 401
        · simp [verdict, expired]
        · simp [verdict, success, expired]

theorem outcome_eq_true :
    r.outcome c rejected = .ok true ↔
      r.current ≠ some rejected ∨ ∃ tokens, r.tokens? c rejected = some tokens := by
  by_cases same : r.current = some rejected
  · cases spent : r.spent with
    | none => simp [outcome, tokens?, request?, same, spent]
    | some token =>
      cases built : c.refreshBuilder c.server token with
      | error failure => simp [outcome, tokens?, request?, same, spent, built, Except.toOption]
      | ok request =>
        simp [outcome, tokens?, request?, same, spent, built, Except.toOption, verdict_eq_true]
  · simp [outcome, same]

end Renewal

namespace Course

theorem rejection_eq_some {token : String} {rejection : Response} :
    a.rejection? command = some (token, rejection) ↔ Rejected command a token rejection := by
  constructor
  · intro found
    unfold rejection? at found
    split at found
    · rename_i authorized read answered
      split at found
      · rename_i unauthorized
        cases found
        exact ⟨authorized, read, answered, unauthorized⟩
      · contradiction
    · contradiction
  · rintro ⟨authorized, read, answered, unauthorized⟩
    simp [rejection?, authorized, read, answered, unauthorized]

theorem locked_eq_some {token : String} {rejection : Response} :
    a.locked? c command = some (token, rejection) ↔ Locked c command a token rejection := by
  constructor
  · intro found
    unfold locked? seeking? at found
    split at found
    · rename_i granted
      split at found
      · rename_i possible
        obtain ⟨refreshable, feature⟩ := Bool.and_eq_true_iff.mp possible
        exact ⟨rejection_eq_some.mp found, refreshable, feature, granted⟩
      · contradiction
    · contradiction
  · rintro ⟨rejected, refreshable, feature, granted⟩
    simp [locked?, seeking?, refreshable, feature, granted, rejection_eq_some.mpr rejected]

theorem refresh_request_eq_some {request : Command} :
    a.refreshRequest? c command = some request ↔ a.Refreshes c command request := by
  simp only [refreshRequest?, Option.bind_eq_some_iff, Prod.exists, locked_eq_some,
    Renewal.request_eq_some]
  constructor
  · rintro ⟨token, rejection, locked, same, spent, read, built⟩
    exact ⟨token, rejection, spent, locked, same, read, built⟩
  · rintro ⟨token, rejection, spent, locked, same, read, built⟩
    exact ⟨token, rejection, locked, same, spent, read, built⟩

theorem tokens_eq_some {tokens : RefreshedTokens} :
    a.tokens? c command = some tokens ↔ a.Accepts c command tokens := by
  have split : a.tokens? c command = some tokens ↔
      ∃ request, a.refreshRequest? c command = some request ∧
        brought? a.renewal.reply = some tokens := by
    simp only [tokens?, refreshRequest?, Option.bind_eq_some_iff, Renewal.tokens_eq_some]
    constructor
    · rintro ⟨behind, locked, request, asked, brought⟩
      exact ⟨request, ⟨behind, locked, asked⟩, brought⟩
    · rintro ⟨request, ⟨behind, locked, asked⟩, brought⟩
      exact ⟨behind, locked, request, asked, brought⟩
  rw [split]
  simp only [refresh_request_eq_some, brought_eq_some]
  constructor
  · rintro ⟨request, refreshes, response, replied, success, decoded⟩
    exact ⟨request, response, refreshes, replied, success, decoded⟩
  · rintro ⟨request, response, refreshes, replied, success, decoded⟩
    exact ⟨request, refreshes, response, replied, success, decoded⟩

theorem replay_token_eq_some {token : String} :
    a.replayToken? c command = some token ↔ a.Replays c command token := by
  constructor
  · intro found
    obtain ⟨⟨rejected, rejection⟩, locked, found⟩ := Option.bind_eq_some_iff.mp found
    refine ⟨rejected, rejection, locked_eq_some.mp locked, ?_⟩
    dsimp only at found
    split at found
    · rename_i again
      refine ⟨(Renewal.outcome_eq_true.mp again).imp_right ?_, found⟩
      rintro ⟨tokens, brought⟩
      exact ⟨tokens, tokens_eq_some.mp (Option.bind_eq_some_iff.mpr ⟨_, locked, brought⟩)⟩
    · contradiction
  · rintro ⟨rejected, rejection, locked, renewed, read⟩
    have locked' := locked_eq_some.mpr locked
    have again : a.renewal.outcome c rejected = .ok true := by
      refine Renewal.outcome_eq_true.mpr (renewed.imp_right ?_)
      rintro ⟨tokens, accepts⟩
      refine ⟨tokens, ?_⟩
      have brought := tokens_eq_some.mpr accepts
      rwa [tokens?, locked', Option.bind_some] at brought
    rw [replayToken?, locked', Option.bind_some]
    simp only [again, read]

theorem requests_opening :
    (a.opening c command).filterMap Exchange.request? =
      (a.firstRequest? command).toList.map (·, a.first) := by
  have looked : ((a.rejection? command).toList.map fun _ =>
      (⟨.readToken .refresh, a.refresh⟩ : Exchange)).filterMap Exchange.request? = [] := by
    cases a.rejection? command <;> rfl
  by_cases authorized : command.requiresAuth = true
  · rw [opening, if_pos authorized, firstRequest?, if_pos authorized]
    cases a.access with
    | none => exact looked
    | some token => exact congrArg ((command.withBearer token, a.first) :: ·) looked
  · rw [opening, if_neg authorized, firstRequest?, if_neg authorized]
    rfl

theorem requests_writes (tokens : RefreshedTokens) :
    (writes tokens).filterMap Exchange.request? = [] := by
  obtain ⟨access, refresh⟩ := tokens
  cases refresh <;> rfl

theorem requests_renewal (r : Renewal) (rejected : String) :
    (r.exchanges c rejected).filterMap Exchange.request? =
      (r.request? c rejected).toList.map (·, r.reply) := by
  have stored : ((r.tokens? c rejected).toList.flatMap writes).filterMap Exchange.request? = [] := by
    cases r.tokens? c rejected with
    | none => rfl
    | some tokens => simpa using requests_writes tokens
  have read : (if r.current = some rejected then
      [(⟨.readToken .refresh, r.spent⟩ : Exchange)] else []).filterMap Exchange.request? = [] := by
    split <;> rfl
  have asked : ((r.request? c rejected).toList.map fun request =>
      (⟨.send request (c.options false), r.reply⟩ : Exchange)).filterMap Exchange.request? =
        (r.request? c rejected).toList.map (·, r.reply) := by
    cases r.request? c rejected <;> rfl
  rw [Renewal.exchanges, List.filterMap_cons_none rfl, List.filterMap_append, List.filterMap_append,
    read, asked, stored, List.nil_append, List.append_nil]

theorem requests_locking :
    (a.locking c command).filterMap Exchange.request? =
      (a.refreshRequest? c command).toList.map (·, a.renewal.reply) := by
  have sought : ((a.seeking? c command).toList.map fun _ =>
      (⟨.acquire c.config.lockName c.config.lockTimeout, a.granted⟩ : Exchange)).filterMap
        Exchange.request? = [] := by
    cases a.seeking? c command <;> rfl
  rw [locking, List.filterMap_append, sought, refreshRequest?]
  cases a.locked? c command with
  | none => rfl
  | some behind => simp [requests_renewal, Exchange.request?]

theorem requests_closing :
    (a.closing c command).filterMap Exchange.request? =
      (a.replayToken? c command).toList.map fun token =>
        (command.withBearer token, a.replay.reply) := by
  rw [closing, replayToken?]
  cases a.locked? c command with
  | none => rfl
  | some behind =>
    simp only [Option.toList_some, List.flatMap_cons, List.flatMap_nil, List.append_nil,
      Option.bind_some]
    split
    · rw [Replay.exchanges]
      cases a.replay.token <;> rfl
    · rfl

theorem requests_replied :
    (a.opening c command ++ (a.locking c command ++ a.closing c command)).filterMap
      Exchange.request? = a.replied c command := by
  rw [List.filterMap_append, List.filterMap_append, requests_opening, requests_locking,
    requests_closing, replied]

theorem sent_opening :
    (a.opening c command).filterMap Exchange.sent? = (a.firstRequest? command).toList := by
  rw [Exchange.filterMap_sent, requests_opening]
  simp [Function.comp_def]

theorem sent_locking :
    (a.locking c command).filterMap Exchange.sent? = (a.refreshRequest? c command).toList := by
  rw [Exchange.filterMap_sent, requests_locking]
  simp [Function.comp_def]

theorem sent_closing :
    (a.closing c command).filterMap Exchange.sent? =
      (a.replayToken? c command).toList.map command.withBearer := by
  rw [Exchange.filterMap_sent, requests_closing, List.map_map]
  rfl

end Course

end Conditions

section Protocol

variable {σ : Type} (c : Client) (command : Command)
  (answer : (op : Operation) → σ → op.Reply × σ)

/-- The answers of the surroundings decide an execution: all its operations, the requests among
    them, and how it ends. The surroundings are arbitrary, so the two tokens may be others at every
    read. -/
theorem execute_refines_protocol (s : σ) :
    let transcript := (c.execute command).run.transcript answer s
    let result := ((c.execute command).run.run answer s).1
    ∃ a : Course,
      transcript = a.opening c command ++ (a.locking c command ++ a.closing c command) ∧
      result = a.outcome c command ∧
      transcript.filterMap Exchange.sent? = a.requests c command ∧
      (a.requests c command).length ≤ 3 ∧
      (∀ request, a.refreshRequest? c command = some request ↔ a.Refreshes c command request) ∧
      (∀ token, a.replayToken? c command = some token ↔ a.Replays c command token) ∧
      (command.requiresAuth = false →
        transcript = [⟨.send command (c.options true), a.first⟩] ∧ result = a.first) ∧
      (command.requiresAuth = true → a.access = none →
        transcript = [⟨.readToken .access, none⟩] ∧ result = .error .missingAccessToken) := by
  intro transcript result
  obtain ⟨a, asked, ended⟩ := execute_course c command answer s
  have told : transcript = a.opening c command ++ (a.locking c command ++ a.closing c command) :=
    asked
  refine ⟨a, told, ended, ?_, a.requests_length c command, fun _ => Course.refresh_request_eq_some,
    fun _ => Course.replay_token_eq_some, ?_, ?_⟩
  · rw [told, List.filterMap_append, List.filterMap_append, Course.sent_opening, Course.sent_locking,
      Course.sent_closing, Course.requests, List.append_assoc]
  · intro isPublic
    have accepted : a.rejection? command = none := by simp [Course.rejection?, isPublic]
    obtain ⟨noLock, noReplay, outcome⟩ := a.unrejected c command accepted
    constructor
    · rw [told, noLock, noReplay, Course.opening, if_neg (by simp [isPublic])]
      rfl
    · rw [show result = _ from ended, outcome, if_neg (by simp [isPublic])]
  · intro authorized missing
    have accepted : a.rejection? command = none := by
      simp [Course.rejection?, authorized, missing]
    obtain ⟨noLock, noReplay, outcome⟩ := a.unrejected c command accepted
    constructor
    · rw [told, noLock, noReplay, Course.opening, if_pos authorized, missing, accepted]
      rfl
    · rw [show result = _ from ended, outcome, if_pos ⟨authorized, missing⟩]

end Protocol

def sample : Client where
  server := ⟨"https", none, false, .segments [], none, none⟩
  version := .canonical ⟨1, 11⟩
  features := .ofList [.refreshTokenV3]
  refreshBuilder := .standard
  config := .default

end MatrixSession.Client
