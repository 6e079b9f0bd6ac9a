import MatrixSession.Proofs.Execution.Point

/-!
What an execution does, computed from what it is told. A course lists the answers to the questions of
one execution, each of them on its own, because other callers may change the tokens between any two.
From the answers follow all operations, in order, and the outcome.
-/
namespace MatrixSession.Client

/-- The answers under the lock: the access token found there, the refresh token read in order to
    be spent, and the reply to the refresh request. -/
structure Renewal where
  current : Option String
  spent : Option String
  reply : Except Failure Response

/-- The answers after the lock was given back: the access token found then, and the reply to
    sending the command again. -/
structure Replay where
  token : Option String
  reply : Except Failure Response

structure Course where
  access : Option String
  first : Except Failure Response
  refresh : Option String
  granted : Bool
  renewal : Renewal
  replay : Replay

def brought? : Except Failure Response → Option RefreshedTokens
  | .ok response => if response.status = 200 then RefreshedTokens.ofBytes? response.body else none
  | .error _ => none

def verdict : Except Failure Response → Except Failure Bool
  | .ok response =>
    if response.status = 200 then (response.decode RefreshedTokens.ofBytes?).map fun _ => true
    else if response.status = 401 then .error .authExpired
    else .ok false
  | .error failure => .error failure

def writes (tokens : RefreshedTokens) : List Exchange :=
  ⟨.writeToken .access tokens.access, ()⟩ ::
    tokens.refresh.toList.map fun token => ⟨.writeToken .refresh token, ()⟩

namespace Renewal

variable (c : Client) (r : Renewal) (rejected : String)

def request? : Option Command :=
  if r.current = some rejected then
    r.spent.bind fun token => (c.refreshBuilder c.server token).toOption
  else none

def tokens? : Option RefreshedTokens := (r.request? c rejected).bind fun _ => brought? r.reply

def exchanges : List Exchange :=
  ⟨.readToken .access, r.current⟩ ::
    ((if r.current = some rejected then [⟨.readToken .refresh, r.spent⟩] else []) ++
      (r.request? c rejected).toList.map (fun request => ⟨.send request (c.options false), r.reply⟩) ++
      (r.tokens? c rejected).toList.flatMap writes)

def outcome : Except Failure Bool :=
  if r.current = some rejected then
    match r.spent with
    | none => .error .authExpired
    | some token =>
      match c.refreshBuilder c.server token with
      | .error failure => .error failure
      | .ok _ => verdict r.reply
  else .ok true

end Renewal

namespace Replay

variable (c : Client) (command : Command) (r : Replay)

def exchanges : List Exchange :=
  ⟨.readToken .access, r.token⟩ ::
    r.token.toList.map fun token => ⟨.send (command.withBearer token) (c.options false), r.reply⟩

def outcome : Except Failure Response :=
  if r.token.isSome then r.reply else .error .missingAccessToken

end Replay

namespace Course

variable (c : Client) (command : Command) (a : Course)

def rejection? : Option (String × Response) :=
  match command.requiresAuth, a.access, a.first with
  | true, some token, .ok response => if response.status = 401 then some (token, response) else none
  | _, _, _ => none

def seeking? : Option (String × Response) :=
  if a.refresh.isSome && c.features.has .refreshTokenV3 then a.rejection? command else none

def locked? : Option (String × Response) := if a.granted then a.seeking? c command else none

def firstRequest? : Option Command :=
  if command.requiresAuth then a.access.map command.withBearer else some command

def refreshRequest? : Option Command :=
  (a.locked? c command).bind fun (rejected, _) => a.renewal.request? c rejected

def tokens? : Option RefreshedTokens :=
  (a.locked? c command).bind fun (rejected, _) => a.renewal.tokens? c rejected

def replayToken? : Option String :=
  (a.locked? c command).bind fun (rejected, _) =>
    match a.renewal.outcome c rejected with
    | .ok true => a.replay.token
    | _ => none

/-- What is done before the lock is asked for. -/
def opening : List Exchange :=
  if command.requiresAuth then
    ⟨.readToken .access, a.access⟩ ::
      (a.access.toList.map (fun token =>
        ⟨.send (command.withBearer token) (c.options false), a.first⟩) ++
      (a.rejection? command).toList.map fun _ => ⟨.readToken .refresh, a.refresh⟩)
  else [⟨.send command (c.options true), a.first⟩]

/-- What is done from asking for the lock until giving it back. -/
def locking : List Exchange :=
  (a.seeking? c command).toList.map
      (fun _ => ⟨.acquire c.config.lockName c.config.lockTimeout, a.granted⟩) ++
    (a.locked? c command).toList.flatMap fun (rejected, _) =>
      a.renewal.exchanges c rejected ++ [⟨.release c.config.lockName, ()⟩]

/-- What is done after the lock was given back. -/
def closing : List Exchange :=
  (a.locked? c command).toList.flatMap fun (rejected, _) =>
    match a.renewal.outcome c rejected with
    | .ok true => a.replay.exchanges c command
    | _ => []

/-- How the execution ends. Where nothing can be renewed, the reply to the first attempt stands. -/
def outcome : Except Failure Response :=
  match a.locked? c command with
  | some (rejected, rejection) =>
    match a.renewal.outcome c rejected with
    | .ok true => a.replay.outcome
    | .ok false => .ok rejection
    | .error failure => .error failure
  | none =>
    if command.requiresAuth = true ∧ a.access = none then .error .missingAccessToken else a.first

theorem unrejected (accepted : a.rejection? command = none) :
    a.locking c command = [] ∧ a.closing c command = [] ∧
      a.outcome c command =
        if command.requiresAuth = true ∧ a.access = none then .error .missingAccessToken
        else a.first := by
  have unlocked : a.locked? c command = none := by simp [locked?, seeking?, accepted]
  simp [locking, closing, outcome, unlocked, seeking?, accepted]

end Course

section Runs

variable {σ : Type} (c : Client) (command : Command)
  (answer : (op : Operation) → σ → op.Reply × σ)

theorem transcript_remaining (p : Point) {s s' : σ} {reply : (p.operation c command).Reply}
    (told : answer (p.operation c command) s = (reply, s')) :
    (remaining c command (.going p)).transcript answer s =
      ⟨p.operation c command, reply⟩ ::
        (remaining c command (p.next c command reply)).transcript answer s' := by
  rw [remaining_going, Procedure.transcript, told]

theorem run_remaining (p : Point) {s s' : σ} {reply : (p.operation c command).Reply}
    (told : answer (p.operation c command) s = (reply, s')) :
    (remaining c command (.going p)).run answer s =
      (remaining c command (p.next c command reply)).run answer s' := by
  rw [remaining_going, Procedure.run, told]

theorem transcript_finished (result : Except Failure Response) (s : σ) :
    (remaining c command (.finished result)).transcript answer s = [] := by
  rw [remaining_finished, Procedure.transcript]

theorem run_finished (result : Except Failure Response) (s : σ) :
    (remaining c command (.finished result)).run answer s = (result, s) := by
  rw [remaining_finished, Procedure.run]

theorem replay_course (s : σ) :
    ∃ r : Replay,
      (remaining c command (.going .readRenewed)).transcript answer s = r.exchanges c command ∧
      ((remaining c command (.going .readRenewed)).run answer s).1 = r.outcome := by
  rcases told : answer (.readToken .access) s with ⟨token, s₁⟩
  rw [transcript_remaining c command answer .readRenewed told,
    run_remaining c command answer .readRenewed told]
  cases token with
  | none =>
    -- Nothing is sent, so the reply of the course is any one.
    refine ⟨⟨none, .error .missingAccessToken⟩, ?_⟩
    rw [Point.next, transcript_finished, run_finished]
    exact ⟨rfl, rfl⟩
  | some token =>
    rcases replied : answer (.send (command.withBearer token) (c.options false)) s₁ with ⟨reply, s₂⟩
    refine ⟨⟨some token, reply⟩, ?_⟩
    rw [Point.next, transcript_remaining c command answer (.sendAgain token) replied,
      run_remaining c command answer (.sendAgain token) replied, Point.next, transcript_finished, run_finished]
    exact ⟨rfl, rfl⟩

theorem leave_course (rejection : Response) (renewed : Except Failure Bool) (s : σ) :
    ∃ r : Replay,
      (leave c command rejection renewed).transcript answer s =
        ⟨.release c.config.lockName, ()⟩ ::
          (match renewed with
            | .ok true => r.exchanges c command
            | _ => []) ∧
      ((leave c command rejection renewed).run answer s).1 =
        match renewed with
        | .ok true => r.outcome
        | .ok false => .ok rejection
        | .error failure => .error failure := by
  rcases told : answer (.release c.config.lockName) s with ⟨_, s₁⟩
  rw [leave, transcript_remaining c command answer (.giveBack rejection renewed) told,
    run_remaining c command answer (.giveBack rejection renewed) told]
  obtain ⟨r, asked, ended⟩ := replay_course c command answer s₁
  refine ⟨r, ?_⟩
  cases renewed with
  | error failure =>
    rw [Point.next, transcript_finished, run_finished]
    exact ⟨rfl, rfl⟩
  | ok renewed =>
    cases renewed with
    | false =>
      rw [Point.next, transcript_finished, run_finished]
      exact ⟨rfl, rfl⟩
    | true => exact ⟨congrArg _ asked, ended⟩

theorem after_refresh_brought {reply : Except Failure Response} {tokens : RefreshedTokens}
    (brought : brought? reply = some tokens) (rejection : Response) :
    Point.afterRefresh rejection reply = .storeAccess rejection tokens ∧
      verdict reply = .ok true := by
  cases reply with
  | error failure => simp [brought?] at brought
  | ok response =>
    simp only [brought?] at brought
    split at brought
    · rename_i success
      simp [Point.afterRefresh, verdict, success, Response.decode, brought, Except.map]
    · contradiction

theorem after_refresh_unbrought {reply : Except Failure Response} (brought : brought? reply = none)
    (rejection : Response) :
    Point.afterRefresh rejection reply = .giveBack rejection (verdict reply) := by
  cases reply with
  | error failure => rfl
  | ok response =>
    simp only [brought?] at brought
    simp only [Point.afterRefresh, verdict]
    split at brought
    · rename_i success
      simp [success, Response.decode, brought, Except.map]
    · rename_i failed
      simp only [failed, ↓reduceIte]
      split <;> rfl

theorem store_course (rejection : Response) (tokens : RefreshedTokens) (s : σ) :
    ∃ s', (remaining c command (.going (.storeAccess rejection tokens))).transcript answer s =
        writes tokens ++ (leave c command rejection (.ok true)).transcript answer s' ∧
      (remaining c command (.going (.storeAccess rejection tokens))).run answer s =
        (leave c command rejection (.ok true)).run answer s' := by
  obtain ⟨access, refresh⟩ := tokens
  rcases told : answer (.writeToken .access access) s with ⟨_, s₁⟩
  rw [transcript_remaining c command answer (.storeAccess rejection ⟨access, refresh⟩) told,
    run_remaining c command answer (.storeAccess rejection ⟨access, refresh⟩) told]
  cases refresh with
  | none => exact ⟨s₁, rfl, rfl⟩
  | some token =>
    rcases stored : answer (.writeToken .refresh token) s₁ with ⟨_, s₂⟩
    refine ⟨s₂, ?_⟩
    rw [Point.next, Point.afterAccess,
      transcript_remaining c command answer (.storeRefresh rejection token) stored,
      run_remaining c command answer (.storeRefresh rejection token) stored]
    exact ⟨rfl, rfl⟩

theorem refresh_course (rejection : Response) (request : Command) (s : σ) :
    ∃ reply s', (remaining c command (.going (.sendRefresh rejection request))).transcript answer s =
        ⟨.send request (c.options false), reply⟩ :: ((brought? reply).toList.flatMap writes ++
          (leave c command rejection (verdict reply)).transcript answer s') ∧
      (remaining c command (.going (.sendRefresh rejection request))).run answer s =
        (leave c command rejection (verdict reply)).run answer s' := by
  rcases replied : answer (.send request (c.options false)) s with ⟨reply, s₁⟩
  rw [transcript_remaining c command answer (.sendRefresh rejection request) replied,
    run_remaining c command answer (.sendRefresh rejection request) replied, Point.next]
  cases brought : brought? reply with
  | none =>
    rw [after_refresh_unbrought brought]
    exact ⟨reply, s₁, by rw [brought]; rfl, rfl⟩
  | some tokens =>
    obtain ⟨after, again⟩ := after_refresh_brought brought rejection
    obtain ⟨s', asked, ended⟩ := store_course c command answer rejection tokens s₁
    refine ⟨reply, s', ?_, ?_⟩
    · rw [after, again, brought, asked]
      simp [Point.operation]
    · rw [after, again, ended]

theorem spend_course (rejected : String) (rejection : Response) (s : σ) :
    ∃ (spent : Option String) (reply : Except Failure Response) (s' : σ),
      let r : Renewal := ⟨some rejected, spent, reply⟩
      (remaining c command (.going (.spendRefresh rejection))).transcript answer s =
        ⟨.readToken .refresh, spent⟩ ::
          ((r.request? c rejected).toList.map
              (fun request => ⟨.send request (c.options false), reply⟩) ++
            ((r.tokens? c rejected).toList.flatMap writes ++
              (leave c command rejection (r.outcome c rejected)).transcript answer s')) ∧
      (remaining c command (.going (.spendRefresh rejection))).run answer s =
        (leave c command rejection (r.outcome c rejected)).run answer s' := by
  rcases told : answer (.readToken .refresh) s with ⟨spent, s₁⟩
  rw [transcript_remaining c command answer (.spendRefresh rejection) told,
    run_remaining c command answer (.spendRefresh rejection) told, Point.next]
  cases spent with
  | none =>
    refine ⟨none, .ok rejection, s₁, ?_, ?_⟩
    · simp [Renewal.request?, Renewal.tokens?, Renewal.outcome, Point.afterSpending, leave]
    · simp [Renewal.outcome, Point.afterSpending, leave]
  | some token =>
    rw [Point.afterSpending]
    cases built : c.refreshBuilder c.server token with
    | error failure =>
      refine ⟨some token, .ok rejection, s₁, ?_, ?_⟩
      · simp [Renewal.request?, Renewal.tokens?, Renewal.outcome, built, Except.toOption, leave,
          Point.operation]
      · simp [Renewal.outcome, built, leave]
    | ok request =>
      obtain ⟨reply, s', asked, ended⟩ := refresh_course c command answer rejection request s₁
      refine ⟨some token, reply, s', ?_, ?_⟩
      · simp [Renewal.request?, Renewal.tokens?, Renewal.outcome, built, Except.toOption, asked,
          Point.operation]
      · simp [Renewal.outcome, built, ended]

theorem renewal_course (rejected : String) (rejection : Response) (s : σ) :
    ∃ (r : Renewal) (s' : σ),
      (remaining c command (.going (.readAgain rejected rejection))).transcript answer s =
        r.exchanges c rejected ++
          (leave c command rejection (r.outcome c rejected)).transcript answer s' ∧
      (remaining c command (.going (.readAgain rejected rejection))).run answer s =
        (leave c command rejection (r.outcome c rejected)).run answer s' := by
  rcases told : answer (.readToken .access) s with ⟨current, s₁⟩
  rw [transcript_remaining c command answer (.readAgain rejected rejection) told,
    run_remaining c command answer (.readAgain rejected rejection) told, Point.next]
  by_cases same : current = some rejected
  · obtain ⟨spent, reply, s', asked, ended⟩ :=
      spend_course c command answer rejected rejection s₁
    rw [if_pos same, asked, ended]
    refine ⟨⟨current, spent, reply⟩, s', ?_, ?_⟩
    · simp [Renewal.exchanges, same, Point.operation]
    · rw [same]
  · -- Another caller has replaced the token: neither refresh token nor server is asked.
    rw [if_neg same]
    refine ⟨⟨current, none, .ok rejection⟩, s₁, ?_, ?_⟩
    · simp [same, Renewal.exchanges, Renewal.request?, Renewal.tokens?, Renewal.outcome, leave,
        Point.operation]
    · simp [same, Renewal.outcome, leave]

theorem lock_course (rejected : String) (rejection : Response) (s : σ) :
    ∃ (granted : Bool) (r : Renewal) (q : Replay),
      (remaining c command (.going (.takeLock rejected rejection))).transcript answer s =
        ⟨.acquire c.config.lockName c.config.lockTimeout, granted⟩ ::
          (if granted then
            r.exchanges c rejected ++ ⟨.release c.config.lockName, ()⟩ ::
              (match r.outcome c rejected with
                | .ok true => q.exchanges c command
                | _ => [])
          else []) ∧
      ((remaining c command (.going (.takeLock rejected rejection))).run answer s).1 =
        if granted then
          match r.outcome c rejected with
          | .ok true => q.outcome
          | .ok false => .ok rejection
          | .error failure => .error failure
        else .ok rejection := by
  rcases told : answer (.acquire c.config.lockName c.config.lockTimeout) s with ⟨granted, s₁⟩
  rw [transcript_remaining c command answer (.takeLock rejected rejection) told,
    run_remaining c command answer (.takeLock rejected rejection) told]
  cases granted with
  | false =>
    refine ⟨false, ⟨none, none, .ok rejection⟩, ⟨none, .ok rejection⟩, ?_⟩
    rw [Point.next, transcript_finished, run_finished]
    exact ⟨rfl, rfl⟩
  | true =>
    obtain ⟨r, s', asked, ended⟩ := renewal_course c command answer rejected rejection s₁
    obtain ⟨q, asked', ended'⟩ := leave_course c command answer rejection (r.outcome c rejected) s'
    refine ⟨true, r, q, ?_, ?_⟩
    · rw [Point.next, asked, asked']
      rfl
    · rw [Point.next, ended, ended']
      rfl

theorem rejected_course (token : String) (rejection : Response) (s : σ)
    (authorized : command.requiresAuth = true) (unauthorized : rejection.status = 401) :
    ∃ a : Course, a.access = some token ∧ a.first = .ok rejection ∧
      (remaining c command (.going (.readRefresh token rejection))).transcript answer s =
        ⟨.readToken .refresh, a.refresh⟩ :: (a.locking c command ++ a.closing c command) ∧
      ((remaining c command (.going (.readRefresh token rejection))).run answer s).1 =
        a.outcome c command := by
  rcases told : answer (.readToken .refresh) s with ⟨refresh, s₁⟩
  rw [transcript_remaining c command answer (.readRefresh token rejection) told,
    run_remaining c command answer (.readRefresh token rejection) told, Point.next]
  obtain ⟨granted, r, q, asked, ended⟩ := lock_course c command answer token rejection s₁
  refine ⟨⟨some token, .ok rejection, refresh, granted, r, q⟩, rfl, rfl, ?_⟩
  have sought (granted : Bool) : Course.seeking? c command
      ⟨some token, .ok rejection, refresh, granted, r, q⟩ =
        if refresh.isSome && c.features.has .refreshTokenV3 then some (token, rejection)
        else none := by
    simp [Course.seeking?, Course.rejection?, authorized, unauthorized]
  by_cases possible : (refresh.isSome && c.features.has .refreshTokenV3) = true
  · rw [if_pos possible, asked, ended]
    simp only [possible, ↓reduceIte] at sought
    cases granted with
    | false => simp [Course.locking, Course.closing, Course.locked?, Course.outcome, sought, authorized]
    | true => simp [Course.locking, Course.closing, Course.locked?, Course.outcome, sought]
  · rw [if_neg possible, transcript_finished, run_finished]
    simp only [possible] at sought
    simp [Course.locking, Course.closing, Course.locked?, Course.outcome, sought]

theorem attempt_course (token : String) (s : σ) (authorized : command.requiresAuth = true) :
    ∃ a : Course, a.access = some token ∧
      (remaining c command (.going (.sendFirst token))).transcript answer s =
        ⟨.send (command.withBearer token) (c.options false), a.first⟩ ::
          ((a.rejection? command).toList.map (fun _ => ⟨.readToken .refresh, a.refresh⟩) ++
            (a.locking c command ++ a.closing c command)) ∧
      ((remaining c command (.going (.sendFirst token))).run answer s).1 = a.outcome c command := by
  rcases told : answer (.send (command.withBearer token) (c.options false)) s with ⟨first, s₁⟩
  rw [transcript_remaining c command answer (.sendFirst token) told,
    run_remaining c command answer (.sendFirst token) told]
  by_cases unauthorized : ∃ rejection, first = .ok rejection ∧ rejection.status = 401
  · obtain ⟨rejection, rfl, unauthorized⟩ := unauthorized
    obtain ⟨a, read, answered, asked, ended⟩ :=
      rejected_course c command answer token rejection s₁ authorized unauthorized
    refine ⟨a, read, ?_, ?_⟩
    · rw [Point.next, if_pos unauthorized, asked]
      simp [Course.rejection?, authorized, read, answered, unauthorized]
    · rw [Point.next, if_pos unauthorized, ended]
  · let a : Course := ⟨some token, first, none, false, ⟨none, none, first⟩, ⟨none, first⟩⟩
    have accepted : a.rejection? command = none := by
      cases first with
      | error failure => simp [a, Course.rejection?]
      | ok response => simp_all [a, Course.rejection?]
    have stands : (Point.sendFirst token).next c command first = .finished first := by
      cases first with
      | error failure => rfl
      | ok response => rw [Point.next, if_neg (by simpa using unauthorized)]
    obtain ⟨noLock, noReplay, ended⟩ := a.unrejected c command accepted
    refine ⟨a, rfl, ?_, ?_⟩
    · rw [stands, transcript_finished, noLock, noReplay, accepted]
      rfl
    · rw [stands, run_finished, ended]
      simp [a]

theorem execute_course (s : σ) :
    ∃ a : Course,
      (c.execute command).run.transcript answer s =
        a.opening c command ++ (a.locking c command ++ a.closing c command) ∧
      ((c.execute command).run.run answer s).1 = a.outcome c command := by
  rw [execute_remaining, Point.first]
  by_cases authorized : command.requiresAuth = true
  · rw [if_pos authorized]
    rcases told : answer (.readToken .access) s with ⟨access, s₁⟩
    rw [transcript_remaining c command answer .readAccess told,
      run_remaining c command answer .readAccess told]
    cases access with
    | none =>
      let a : Course := ⟨none, .error .missingAccessToken, none, false,
        ⟨none, none, .error .missingAccessToken⟩, ⟨none, .error .missingAccessToken⟩⟩
      have accepted : a.rejection? command = none := by simp [a, Course.rejection?]
      obtain ⟨noLock, noReplay, ended⟩ := a.unrejected c command accepted
      refine ⟨a, ?_, ?_⟩
      · rw [Point.next, transcript_finished, noLock, noReplay, Course.opening, if_pos authorized,
          accepted]
        rfl
      · rw [Point.next, run_finished, ended]
        simp [a, authorized]
    | some token =>
      obtain ⟨a, read, asked, ended⟩ := attempt_course c command answer token s₁ authorized
      refine ⟨a, ?_, ?_⟩
      · rw [Point.next, asked, Course.opening, if_pos authorized, read]
        simp
      · rw [Point.next, ended]
  · rw [if_neg authorized]
    rcases told : answer (.send command (c.options true)) s with ⟨first, s₁⟩
    rw [transcript_remaining c command answer .sendPublic told,
      run_remaining c command answer .sendPublic told, Point.next, transcript_finished, run_finished]
    let a : Course := ⟨none, first, none, false, ⟨none, none, first⟩, ⟨none, first⟩⟩
    have accepted : a.rejection? command = none := by simp [a, Course.rejection?, authorized]
    obtain ⟨noLock, noReplay, ended⟩ := a.unrejected c command accepted
    refine ⟨a, ?_, ?_⟩
    · rw [noLock, noReplay, Course.opening, if_neg authorized]
      rfl
    · rw [ended]
      simp [a, authorized]

end Runs

end MatrixSession.Client
