import MatrixSession.Proofs.Execution.Protocol

/-!
Where the result of an execution comes from. A response that is returned is a reply to the command
itself, never to the refresh request, and none came after it: it is the last one, or it is a rejection
that stands because the token could not be renewed.
-/
namespace MatrixSession.Client

theorem Replay.outcome_eq_ok {r : Replay} {response : Response} :
    r.outcome = .ok response ↔ ∃ token, r.token = some token ∧ r.reply = .ok response := by
  cases read : r.token with
  | none => simp [outcome, read]
  | some token => simp [outcome, read]

inductive OwnFailure : Failure → Prop
  | missing : OwnFailure .missingAccessToken
  | expired : OwnFailure .authExpired
  | malformed : OwnFailure (.protocol .malformedJson)

theorem verdict_eq_error {reply : Except Failure Response} {failure : Failure}
    (failed : verdict reply = .error failure) : OwnFailure failure ∨ reply = .error failure := by
  cases reply with
  | error failure' =>
    obtain rfl := Except.error.inj failed
    exact .inr rfl
  | ok response =>
    left
    unfold verdict at failed
    dsimp only at failed
    split at failed
    · cases read : RefreshedTokens.ofBytes? response.body with
      | none =>
        rw [Response.decode, read] at failed
        obtain rfl := Except.error.inj failed
        exact .malformed
      | some tokens =>
        rw [Response.decode, read] at failed
        contradiction
    · split at failed
      · obtain rfl := Except.error.inj failed
        exact .expired
      · contradiction

def Renewal.Unbuilt (c : Client) (r : Renewal) (rejected : String) (failure : Failure) : Prop :=
  r.current = some rejected ∧
    ∃ spent, r.spent = some spent ∧ c.refreshBuilder c.server spent = .error failure

theorem Renewal.outcome_eq_error {c : Client} {r : Renewal} {rejected : String} {failure : Failure}
    (failed : r.outcome c rejected = .error failure) :
    OwnFailure failure ∨ r.Unbuilt c rejected failure ∨
      ∃ request, r.request? c rejected = some request ∧ r.reply = .error failure := by
  by_cases same : r.current = some rejected
  · rw [outcome, if_pos same] at failed
    cases spent : r.spent with
    | none =>
      rw [spent] at failed
      obtain rfl := Except.error.inj failed
      exact .inl .expired
    | some token =>
      rw [spent] at failed
      cases built : c.refreshBuilder c.server token with
      | error failure' =>
        simp only [built] at failed
        obtain rfl := Except.error.inj failed
        exact .inr (.inl ⟨same, token, spent, built⟩)
      | ok request =>
        simp only [built] at failed
        have asked := request_eq_some.mpr ⟨same, token, spent, built⟩
        obtain own | answered := verdict_eq_error failed
        · exact .inl own
        · exact .inr (.inr ⟨request, asked, answered⟩)
  · rw [outcome, if_neg same] at failed
    contradiction

theorem Replay.outcome_eq_error {r : Replay} {failure : Failure}
    (failed : r.outcome = .error failure) :
    OwnFailure failure ∨ ∃ token, r.token = some token ∧ r.reply = .error failure := by
  cases read : r.token with
  | none =>
    obtain rfl : Failure.missingAccessToken = failure := by simpa [outcome, read] using failed
    exact .inl .missing
  | some token => exact .inr ⟨token, rfl, by simpa [outcome, read] using failed⟩

namespace Course

variable {c : Client} {command : Command} {a : Course} {failure : Failure}

/-- At most the refresh request. -/
def RefreshAtMost (c : Client) (requests : List (Command × Except Failure Response)) : Prop :=
  requests = [] ∨
    ∃ spent request reply, c.refreshBuilder c.server spent = .ok request ∧
      requests = [(request, reply)]

/-- The response is the last reply to an attempt at the command. After a rejection alone the refresh
request may follow. -/
def Attempted (c : Client) (command : Command)
    (requests : List (Command × Except Failure Response)) (response : Response) : Prop :=
  ∃ token earlier later,
    requests = earlier ++ (command.withBearer token, .ok response) :: later ∧
    RefreshAtMost c later ∧ (response.status = 401 ∨ later = [])

/-- The first attempt is rejected and that is the end of it: a refresh is not possible, the lock is
not granted, or the reply to the refresh request neither brings tokens nor rejects the old one. -/
inductive Degraded (c : Client) (command : Command) (a : Course) (rejection : Response) : Prop
  | unrefreshable {token : String} (rejected : a.Rejected command token rejection)
      (impossible : a.refresh = none ∨ c.features.has .refreshTokenV3 = false)
  | ungranted {token : String} (rejected : a.Rejected command token rejection)
      (ungranted : a.granted = false)
  | limited {token spent : String} {request : Command} {response : Response}
      (locked : a.Locked c command token rejection)
      (current : a.renewal.current = some token) (read : a.renewal.spent = some spent)
      (built : c.refreshBuilder c.server spent = .ok request)
      (replied : a.renewal.reply = .ok response) (failed : response.status ≠ 200)
      (unrejected : response.status ≠ 401)

theorem outcome_unlocked (unlocked : a.locked? c command = none) :
    a.outcome c command =
      if command.requiresAuth = true ∧ a.access = none then .error .missingAccessToken
      else a.first := by
  rw [outcome, unlocked]

theorem outcome_locked {token : String} {rejection : Response}
    (locked : a.Locked c command token rejection) :
    a.outcome c command = a.renewal.outcome c token >>= fun again =>
      if again then a.replay.outcome else .ok rejection := by
  rw [outcome, locked_eq_some.mpr locked]
  dsimp only
  cases a.renewal.outcome c token with
  | error failure => rfl
  | ok again => cases again <;> rfl

theorem refresh_at_most (c : Client) (command : Command) (a : Course) :
    RefreshAtMost c ((a.refreshRequest? c command).toList.map (·, a.renewal.reply)) := by
  cases asked : a.refreshRequest? c command with
  | none => exact .inl rfl
  | some request =>
    obtain ⟨_, _, spent, _, _, _, built⟩ := refresh_request_eq_some.mp asked
    exact .inr ⟨spent, request, a.renewal.reply, built, rfl⟩

theorem attempted_of_outcome (authorized : command.requiresAuth = true) {response : Response}
    (ended : a.outcome c command = .ok response) :
    Attempted c command (a.replied c command) response := by
  cases found : a.locked? c command with
  | none =>
    rw [outcome_unlocked found] at ended
    obtain ⟨token, read⟩ : ∃ token, a.access = some token := by
      refine Option.ne_none_iff_exists'.mp fun missing => ?_
      rw [if_pos ⟨authorized, missing⟩] at ended
      contradiction
    rw [if_neg (by simp [read])] at ended
    refine ⟨token, [], [], ?_, .inl rfl, .inr rfl⟩
    simp [replied, firstRequest?, refreshRequest?, replayToken?, found, authorized, read, ended]
  | some behind =>
    obtain ⟨rejected, rejection⟩ := behind
    have locked := locked_eq_some.mp found
    have first : (a.firstRequest? command).toList.map (·, a.first) =
        [(command.withBearer rejected, .ok rejection)] := by
      simp [firstRequest?, authorized, locked.read, locked.answered]
    rw [outcome_locked locked] at ended
    cases renewed : a.renewal.outcome c rejected with
    | error failure =>
      rw [renewed] at ended
      contradiction
    | ok again =>
      have replayed : a.replayToken? c command = if again then a.replay.token else none := by
        cases again <;> simp [replayToken?, found, renewed]
      rw [renewed] at ended
      cases again with
      | false =>
        -- The rejection stands, and the refresh request came after it.
        obtain rfl := Except.ok.inj ended
        refine ⟨rejected, [], _, ?_, refresh_at_most c command a, .inl locked.unauthorized⟩
        rw [replied, first, replayed]
        exact congrArg _ (List.append_nil _)
      | true =>
        obtain ⟨token, read, answered⟩ := Replay.outcome_eq_ok.mp ended
        refine ⟨token, (command.withBearer rejected, .ok rejection) ::
          (a.refreshRequest? c command).toList.map (·, a.renewal.reply), [], ?_, .inl rfl, .inr rfl⟩
        rw [replied, first, replayed, if_pos rfl, read, answered]
        rfl

theorem outcome_degraded {rejection : Response} (degraded : a.Degraded c command rejection) :
    a.outcome c command = .ok rejection ∧ rejection.status = 401 := by
  have unlocked {token : String} (rejected : a.Rejected command token rejection)
      (none : a.locked? c command = none) :
      a.outcome c command = .ok rejection ∧ rejection.status = 401 := by
    rw [outcome_unlocked none, if_neg (by simp [rejected.read]), rejected.answered]
    exact ⟨rfl, rejected.unauthorized⟩
  cases degraded with
  | unrefreshable rejected impossible =>
    refine unlocked rejected (Option.eq_none_iff_forall_not_mem.mpr fun behind found => ?_)
    have locked := locked_eq_some.mp found
    obtain missing | missing := impossible
    · exact absurd locked.refreshable (by simp [missing])
    · exact absurd locked.feature (by simp [missing])
  | ungranted rejected ungranted =>
    refine unlocked rejected (if_neg (by simp [ungranted]))
  | @limited token spent request response locked current read built answered failed unrejected =>
    have stale : a.renewal.outcome c token = .ok false := by
      simp [Renewal.outcome, current, read, built, answered, verdict, failed, unrejected]
    rw [outcome_locked locked, stale]
    exact ⟨rfl, locked.unauthorized⟩

/-- The refresh request cannot be built, so that the rejected attempt is the only request. -/
def Unbuilt (c : Client) (command : Command) (a : Course) (failure : Failure) : Prop :=
  ∃ token rejection, a.Locked c command token rejection ∧ a.renewal.Unbuilt c token failure

theorem unbuilt_replied (unbuilt : a.Unbuilt c command failure) :
    ∃ token rejection spent,
      a.replied c command = [(command.withBearer token, .ok rejection)] ∧ rejection.status = 401 ∧
      (⟨.readToken .refresh, some spent⟩ : Exchange) ∈ a.locking c command ∧
      c.refreshBuilder c.server spent = .error failure := by
  obtain ⟨token, rejection, locked, current, spent, read, refused⟩ := unbuilt
  have found := locked_eq_some.mpr locked
  have unasked : a.renewal.request? c token = none := by
    simp [Renewal.request?, current, read, refused, Except.toOption]
  have unrenewed : a.renewal.outcome c token = .error failure := by
    simp [Renewal.outcome, current, read, refused]
  refine ⟨token, rejection, spent, ?_, locked.unauthorized, ?_, refused⟩
  · simp [replied, firstRequest?, refreshRequest?, replayToken?, found, unasked, unrenewed,
      locked.authorized, locked.read, locked.answered]
  · simp [locking, found, Renewal.exchanges, current, read]

theorem outcome_failed (authorized : command.requiresAuth = true)
    (failed : a.outcome c command = .error failure) :
    OwnFailure failure ∨ a.Unbuilt c command failure ∨ ∃ request,
      (⟨.send request (c.options false), .error failure⟩ : Exchange) ∈
        a.opening c command ++ (a.locking c command ++ a.closing c command) := by
  cases found : a.locked? c command with
  | none =>
    rw [outcome_unlocked found] at failed
    cases read : a.access with
    | none =>
      rw [if_pos ⟨authorized, read⟩] at failed
      obtain rfl := Except.error.inj failed
      exact .inl .missing
    | some token =>
      rw [if_neg (by simp [read])] at failed
      refine .inr (.inr ⟨command.withBearer token, List.mem_append_left _ ?_⟩)
      simp [opening, authorized, read, failed]
  | some behind =>
    obtain ⟨rejected, rejection⟩ := behind
    have locked := locked_eq_some.mp found
    rw [outcome_locked locked] at failed
    cases renewed : a.renewal.outcome c rejected with
    | error failure' =>
      rw [renewed] at failed
      obtain rfl := Except.error.inj failed
      obtain own | unbuilt | ⟨request, asked, answered⟩ := Renewal.outcome_eq_error renewed
      · exact .inl own
      · exact .inr (.inl ⟨rejected, rejection, locked, unbuilt⟩)
      · refine .inr (.inr ⟨request, List.mem_append_right _ (List.mem_append_left _ ?_)⟩)
        simp [locking, found, Renewal.exchanges, asked, answered]
    | ok again =>
      rw [renewed] at failed
      cases again with
      | false => contradiction
      | true =>
        obtain own | ⟨token, read, answered⟩ := Replay.outcome_eq_error failed
        · exact .inl own
        · refine .inr (.inr ⟨command.withBearer token,
            List.mem_append_right _ (List.mem_append_right _ ?_)⟩)
          simp [closing, found, renewed, Replay.exchanges, read, answered]

end Course

end MatrixSession.Client
