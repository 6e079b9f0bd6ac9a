import MatrixSession.Client.Execute
import MatrixSession.Proofs.Transcript

/-!
An execution as a state machine. At each point one operation is asked of the surroundings, and its
reply decides where the execution goes on. The procedure of an execution is the unfolding of this
machine from its first point, so what holds of the machine holds of the procedure.
-/
namespace MatrixSession.Client

/-- A point of an execution, named for the operation that is asked there. It holds what the rest
    of the execution needs to know: the token that was rejected, and the rejection itself. -/
inductive Point where
  | sendPublic
  | readAccess
  | sendFirst (token : String)
  | readRefresh (rejected : String) (rejection : Response)
  | takeLock (rejected : String) (rejection : Response)
  | readAgain (rejected : String) (rejection : Response)
  | spendRefresh (rejection : Response)
  | sendRefresh (rejection : Response) (request : Command)
  | storeAccess (rejection : Response) (tokens : RefreshedTokens)
  | storeRefresh (rejection : Response) (token : String)
  | giveBack (rejection : Response) (renewed : Except Failure Bool)
  | readRenewed
  | sendAgain (token : String)

inductive Phase where
  | going (point : Point)
  | finished (result : Except Failure Response)

namespace Point

variable (c : Client) (command : Command)

def first : Point := if command.requiresAuth then readAccess else sendPublic

@[reducible]
def operation : Point → Operation
  | sendPublic => .send command (c.options true)
  | readAccess => .readToken .access
  | sendFirst token => .send (command.withBearer token) (c.options false)
  | readRefresh .. => .readToken .refresh
  | takeLock .. => .acquire c.config.lockName c.config.lockTimeout
  | readAgain .. => .readToken .access
  | spendRefresh _ => .readToken .refresh
  | sendRefresh _ request => .send request (c.options false)
  | storeAccess _ tokens => .writeToken .access tokens.access
  | storeRefresh _ token => .writeToken .refresh token
  | giveBack .. => .release c.config.lockName
  | readRenewed => .readToken .access
  | sendAgain token => .send (command.withBearer token) (c.options false)

def afterSpending (rejection : Response) : Option String → Point
  | none => giveBack rejection (.error .authExpired)
  | some token =>
    match c.refreshBuilder c.server token with
    | .ok request => sendRefresh rejection request
    | .error failure => giveBack rejection (.error failure)

/-- The point after the reply to a refresh request. Only a success with new tokens in it leads to
    the store. -/
def afterRefresh (rejection : Response) : Except Failure Response → Point
  | .error failure => giveBack rejection (.error failure)
  | .ok response =>
    if response.status = 200 then
      match response.decode RefreshedTokens.ofBytes? with
      | .ok tokens => storeAccess rejection tokens
      | .error failure => giveBack rejection (.error failure)
    else if response.status = 401 then giveBack rejection (.error .authExpired)
    else giveBack rejection (.ok false)

def afterAccess (rejection : Response) (tokens : RefreshedTokens) : Point :=
  match tokens.refresh with
  | some token => storeRefresh rejection token
  | none => giveBack rejection (.ok true)

def next : (p : Point) → (p.operation c command).Reply → Phase
  | sendPublic, reply => .finished reply
  | readAccess, none => .finished (.error .missingAccessToken)
  | readAccess, some token => .going (sendFirst token)
  | sendFirst _, .error failure => .finished (.error failure)
  | sendFirst token, .ok response =>
    if response.status = 401 then .going (readRefresh token response) else .finished (.ok response)
  | readRefresh rejected rejection, token =>
    if token.isSome && c.features.has .refreshTokenV3 then .going (takeLock rejected rejection)
    else .finished (.ok rejection)
  | takeLock rejected rejection, true => .going (readAgain rejected rejection)
  | takeLock _ rejection, false => .finished (.ok rejection)
  | readAgain rejected rejection, token =>
    if token = some rejected then .going (spendRefresh rejection)
    else .going (giveBack rejection (.ok true))
  | spendRefresh rejection, token => .going (afterSpending c rejection token)
  | sendRefresh rejection _, reply => .going (afterRefresh rejection reply)
  | storeAccess rejection tokens, _ => .going (afterAccess rejection tokens)
  | storeRefresh rejection _, _ => .going (giveBack rejection (.ok true))
  | giveBack _ (.ok true), _ => .going readRenewed
  | giveBack rejection (.ok false), _ => .finished (.ok rejection)
  | giveBack _ (.error failure), _ => .finished (.error failure)
  | readRenewed, none => .finished (.error .missingAccessToken)
  | readRenewed, some token => .going (sendAgain token)
  | sendAgain _, reply => .finished reply

@[simp]
def rank : Point → Nat
  | sendPublic => 1
  | readAccess => 12
  | sendFirst _ => 11
  | readRefresh .. => 10
  | takeLock .. => 9
  | readAgain .. => 8
  | spendRefresh _ => 7
  | sendRefresh .. => 6
  | storeAccess .. => 5
  | storeRefresh .. => 4
  | giveBack .. => 3
  | readRenewed => 2
  | sendAgain _ => 1

end Point

@[simp]
def Phase.rank : Phase → Nat
  | going p => p.rank
  | finished _ => 0

variable (c : Client) (command : Command)

theorem rank_after_spending (rejection : Response) (token : Option String) :
    (Point.afterSpending c rejection token).rank < 7 := by
  unfold Point.afterSpending
  cases token with
  | none => simp
  | some token => dsimp only; split <;> simp

theorem rank_after_refresh (rejection : Response) (reply : Except Failure Response) :
    (Point.afterRefresh rejection reply).rank < 6 := by
  unfold Point.afterRefresh
  cases reply with
  | error failure => simp
  | ok response =>
    dsimp only
    split
    · split <;> simp
    · split <;> simp

theorem rank_after_access (rejection : Response) (tokens : RefreshedTokens) :
    (Point.afterAccess rejection tokens).rank < 5 := by
  unfold Point.afterAccess
  split <;> simp

/-- No execution comes back to a point. -/
theorem rank_next (p : Point) (reply : (p.operation c command).Reply) :
    (p.next c command reply).rank < p.rank := by
  cases p with
  | sendPublic | storeRefresh _ _ | sendAgain _ => simp [Point.next]
  | readAccess | takeLock _ _ | readRenewed => cases reply <;> simp [Point.next]
  | sendFirst token =>
    cases reply with
    | error failure => simp [Point.next]
    | ok response => rw [Point.next]; split <;> simp
  | readRefresh rejected rejection | readAgain rejected rejection =>
    rw [Point.next]
    split <;> simp
  | spendRefresh rejection => exact rank_after_spending c rejection reply
  | sendRefresh rejection request => exact rank_after_refresh rejection reply
  | storeAccess rejection tokens => exact rank_after_access rejection tokens
  | giveBack rejection renewed =>
    cases renewed with
    | error failure => simp [Point.next]
    | ok renewed => cases renewed <;> simp [Point.next]

def remaining : Phase → Procedure (Except Failure Response)
  | .finished result => .done result
  | .going p =>
    .perform (p.operation c command) fun reply => remaining (p.next c command reply)
termination_by phase => phase.rank
decreasing_by exact rank_next c command p reply

theorem remaining_finished (result : Except Failure Response) :
    remaining c command (.finished result) = .done result := by
  rw [remaining]

theorem remaining_going (p : Point) :
    remaining c command (.going p) =
      .perform (p.operation c command) fun reply => remaining c command (p.next c command reply) := by
  rw [remaining]

theorem perform_remaining (p : Point)
    (after : (p.operation c command).Reply → Procedure (Except Failure Response))
    (agree : ∀ reply, after reply = remaining c command (p.next c command reply)) :
    .perform (p.operation c command) after = remaining c command (.going p) := by
  rw [remaining_going, funext agree]

def leave (rejection : Response) (renewed : Except Failure Bool) :
    Procedure (Except Failure Response) :=
  remaining c command (.going (.giveBack rejection renewed))

theorem send_again_remaining (token : String) :
    (c.sendAuthorized command token).run = remaining c command (.going (.sendAgain token)) := by
  refine perform_remaining c command (.sendAgain token) _ fun reply => ?_
  exact (remaining_finished c command reply).symm

theorem replay_remaining :
    (do let token ← accessToken; c.sendAuthorized command token : Call Response).run =
      remaining c command (.going .readRenewed) := by
  refine perform_remaining c command .readRenewed _ fun token => ?_
  cases token with
  | none => exact (remaining_finished c command _).symm
  | some token => exact send_again_remaining c command token

theorem store_tokens_remaining (rejection : Response) (tokens : RefreshedTokens) :
    (do storeTokens tokens; pure true : Call Bool).run >>= leave c command rejection =
      remaining c command (.going (.storeAccess rejection tokens)) := by
  refine perform_remaining c command (.storeAccess rejection tokens) _ fun _ => ?_
  obtain ⟨access, refresh⟩ := tokens
  cases refresh with
  | none => rfl
  | some token => exact perform_remaining c command (.storeRefresh rejection token) _ fun _ => rfl

theorem refresh_reply_remaining (rejection : Response) (response : Response) :
    (if response.status = 200 then do
        let tokens ← Call.ofExcept (response.decode RefreshedTokens.ofBytes?)
        storeTokens tokens
        pure true
      else if response.status = 401 then throw .authExpired
      else pure false : Call Bool).run >>= leave c command rejection =
      remaining c command (.going (Point.afterRefresh rejection (.ok response))) := by
  unfold Point.afterRefresh
  dsimp only
  by_cases success : response.status = 200
  · rw [if_pos success, if_pos success]
    cases response.decode RefreshedTokens.ofBytes? with
    | error failure => rfl
    | ok tokens => exact store_tokens_remaining c command rejection tokens
  · rw [if_neg success, if_neg success]
    by_cases expired : response.status = 401
    · rw [if_pos expired, if_pos expired]
      rfl
    · rw [if_neg expired, if_neg expired]
      rfl

theorem send_refresh_remaining (rejection : Response) (request : Command) :
    (do let response ← Call.send request (c.options false)
        if response.status = 200 then
          let tokens ← Call.ofExcept (response.decode RefreshedTokens.ofBytes?)
          storeTokens tokens
          pure true
        else if response.status = 401 then throw .authExpired
        else pure false : Call Bool).run >>= leave c command rejection =
      remaining c command (.going (.sendRefresh rejection request)) := by
  refine perform_remaining c command (.sendRefresh rejection request) _ fun reply => ?_
  cases reply with
  | error failure => rfl
  | ok response => exact refresh_reply_remaining c command rejection response

theorem build_refresh_remaining (rejection : Response) (token : String) :
    (do let request ← Call.ofExcept (c.refreshBuilder c.server token)
        let response ← Call.send request (c.options false)
        if response.status = 200 then
          let tokens ← Call.ofExcept (response.decode RefreshedTokens.ofBytes?)
          storeTokens tokens
          pure true
        else if response.status = 401 then throw .authExpired
        else pure false : Call Bool).run >>= leave c command rejection =
      remaining c command (.going (Point.afterSpending c rejection (some token))) := by
  unfold Point.afterSpending
  dsimp only
  cases c.refreshBuilder c.server token with
  | error failure => rfl
  | ok request => exact send_refresh_remaining c command rejection request

theorem exchange_remaining (rejection : Response) :
    c.exchange.run >>= leave c command rejection =
      remaining c command (.going (.spendRefresh rejection)) := by
  refine perform_remaining c command (.spendRefresh rejection) _ fun token => ?_
  cases token with
  | none => rfl
  | some token => exact build_refresh_remaining c command rejection token

theorem renew_remaining (rejected : String) (rejection : Response) :
    (c.renew rejected).run >>= leave c command rejection =
      remaining c command (.going (.readAgain rejected rejection)) := by
  refine perform_remaining c command (.readAgain rejected rejection) _
    fun (token : Option String) => ?_
  simp only [Point.next]
  change (if token = some rejected then c.exchange else pure true : Call Bool).run >>=
    leave c command rejection = _
  by_cases same : token = some rejected
  · rw [if_pos same, if_pos same]
    exact exchange_remaining c command rejection
  · rw [if_neg same, if_neg same]
    rfl

def conclude (rejection : Response) (renewed : Option Bool) : Call Response :=
  match renewed with
  | some true => do
    let token ← accessToken
    c.sendAuthorized command token
  | _ => pure rejection

theorem leave_remaining (rejection : Response) (renewed : Except Failure Bool) :
    (ExceptT.mk (do Procedure.ask (.release c.config.lockName); pure (renewed.map some)) >>=
        conclude c command rejection : Call Response).run =
      leave c command rejection renewed := by
  refine perform_remaining c command (.giveBack rejection renewed) _ fun _ => ?_
  cases renewed with
  | error failure => exact (remaining_finished c command _).symm
  | ok renewed =>
    cases renewed with
    | false => exact (remaining_finished c command _).symm
    | true => exact replay_remaining c command

theorem under_lock_remaining (rejected : String) (rejection : Response) :
    (Call.underLock c.config.lockName c.config.lockTimeout (c.renew rejected) >>=
        conclude c command rejection).run =
      remaining c command (.going (.takeLock rejected rejection)) := by
  refine perform_remaining c command (.takeLock rejected rejection) _ fun (granted : Bool) => ?_
  cases granted with
  | false => exact (remaining_finished c command _).symm
  | true =>
    have released : (fun renewed => (do
          Procedure.ask (.release c.config.lockName)
          pure (renewed.map some)) >>= ExceptT.bindCont (conclude c command rejection)) =
        leave c command rejection := funext fun renewed => leave_remaining c command rejection renewed
    calc
      _ = ((c.renew rejected).run >>= fun renewed => do
            Procedure.ask (.release c.config.lockName)
            pure (renewed.map some)) >>= ExceptT.bindCont (conclude c command rejection) := rfl
      _ = (c.renew rejected).run >>= leave c command rejection := by
        rw [Procedure.bind_assoc, released]
      _ = _ := renew_remaining c command rejected rejection

theorem recover_remaining (rejected : String) (rejection : Response) :
    (c.recover command rejection rejected).run =
      remaining c command (.going (.readRefresh rejected rejection)) := by
  refine perform_remaining c command (.readRefresh rejected rejection) _
    fun (token : Option String) => ?_
  simp only [Point.next]
  change (if token.isSome && c.features.has .refreshTokenV3 then _ else _ : Call Response).run = _
  split
  · exact under_lock_remaining c command rejected rejection
  · exact (remaining_finished c command _).symm

theorem send_first_remaining (token : String) :
    (do let response ← c.sendAuthorized command token
        if response.status = 401 then c.recover command response token
        else pure response : Call Response).run =
      remaining c command (.going (.sendFirst token)) := by
  refine perform_remaining c command (.sendFirst token) _ fun reply => ?_
  cases reply with
  | error failure => exact (remaining_finished c command _).symm
  | ok response =>
    simp only [Point.next]
    change (if response.status = 401 then _ else _ : Call Response).run = _
    split
    · exact recover_remaining c command token response
    · exact (remaining_finished c command _).symm

/-- The procedure of an execution is what remains of it at its first point. -/
theorem execute_remaining :
    (c.execute command).run = remaining c command (.going (Point.first command)) := by
  unfold execute Point.first
  split
  · refine perform_remaining c command .readAccess _ fun token => ?_
    cases token with
    | none => exact (remaining_finished c command _).symm
    | some token => exact send_first_remaining c command token
  · refine perform_remaining c command .sendPublic _ fun reply => ?_
    exact (remaining_finished c command reply).symm

end MatrixSession.Client
