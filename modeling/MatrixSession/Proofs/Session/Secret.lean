import MatrixSession.Proofs.Execution.Point
import MatrixSession.Proofs.Session.Errand
import MatrixSession.Proofs.Session.Intact
import Mathlib.Data.List.Forall2

/-!
Where a refresh token goes. Two sessions that start alike but for the refresh token in the store are
followed side by side: the client asks of both worlds the same, except that a refresh request carries
the token that it spends in its body. A world that does not read it answers both in the same way.
-/
namespace MatrixSession

/-- Both commands spend a refresh token at the server, and only the bodies tell them apart. -/
structure Command.Spending (server : Url) (c c' : Command) : Prop where
  left : ∃ token, RefreshBuilder.standard server token = .ok c
  right : ∃ token, RefreshBuilder.standard server token = .ok c'
  bodies : c' = { c with body := c'.body }

/-- The same command, or two that spend a refresh token. -/
def Command.Twins (server : Url) (c c' : Command) : Prop := c' = c ∨ c.Spending server c'

section Commands

variable {server : Url} {c c' : Command}

theorem RefreshBuilder.standard_body {token : String}
    (built : RefreshBuilder.standard server token = .ok c) : c.body.isSome = true := by
  rw [standard_eq] at built
  split at built
  · contradiction
  · obtain rfl := Except.ok.inj built
    rfl

theorem RefreshBuilder.standard_cases (server : Url) (token token' : String) :
    (∃ failure, standard server token = .error failure ∧ standard server token' = .error failure) ∨
      ∃ c c', standard server token = .ok c ∧ standard server token' = .ok c' ∧
        c.Spending server c' := by
  have left := standard_eq server token
  have right := standard_eq server token'
  cases extended : server.withSegments? ["_matrix", "client", "v3", "refresh"] with
  | none =>
    rw [extended] at left right
    exact .inl ⟨_, left, right⟩
  | some url =>
    rw [extended] at left right
    exact .inr ⟨_, _, left, right, ⟨token, left⟩, ⟨token', right⟩, rfl⟩

theorem Command.Twins.path_eq (twins : c.Twins server c') : c'.path = c.path := by
  obtain rfl | spending := twins
  · rfl
  · rw [spending.bodies]
    rfl

theorem Command.Twins.bearer_eq (twins : c.Twins server c') : c'.bearer? = c.bearer? := by
  obtain rfl | spending := twins
  · rfl
  · rw [spending.bodies]
    rfl

end Commands

namespace Procedure

variable {α β : Type} {server : Url}

/-- Both do the same and end in the same way, given the same replies. The refresh token that is read
may differ if there is one, and so may the requests that spend it. -/
inductive Alike (server : Url) : Procedure α → Procedure α → Prop
  | done (result : α) : Alike server (done result) (done result)
  | readRefresh {next next' : Option String → Procedure α}
      (after : ∀ token token', token'.isSome = token.isSome →
        Alike server (next token) (next' token')) :
      Alike server (perform (.readToken .refresh) next) (perform (.readToken .refresh) next')
  | send {c c' : Command} (twins : c.Twins server c') (options : SendOptions)
      {next next' : Except Failure Response → Procedure α}
      (after : ∀ reply, Alike server (next reply) (next' reply)) :
      Alike server (perform (.send c options) next) (perform (.send c' options) next')
  | same {op : Operation} (other : op ≠ .readToken .refresh) {next next' : op.Reply → Procedure α}
      (after : ∀ reply, Alike server (next reply) (next' reply)) :
      Alike server (perform op next) (perform op next')

theorem Alike.bind {p p' : Procedure α} {f f' : α → Procedure β} (alike : p.Alike server p')
    (after : ∀ a, (f a).Alike server (f' a)) : (p >>= f).Alike server (p' >>= f') := by
  induction alike with
  | done result => exact after result
  | readRefresh _ ih => exact .readRefresh ih
  | send twins options _ ih => exact .send twins options ih
  | same other _ ih => exact .same other ih

end Procedure

namespace Client

variable {c : Client}

inductive Phase.Alike (server : Url) : Phase → Phase → Prop
  | same (phase : Phase) : Alike server phase phase
  | spending (rejection : Response) {request request' : Command}
      (spending : request.Spending server request') :
      Alike server (.going (.sendRefresh rejection request))
        (.going (.sendRefresh rejection request'))

theorem alike_after_spending (standard : c.refreshBuilder = .standard) (rejection : Response)
    {token token' : Option String} (both : token'.isSome = token.isSome) :
    Phase.Alike c.server (.going (Point.afterSpending c rejection token))
      (.going (Point.afterSpending c rejection token')) := by
  cases token with
  | none =>
    obtain rfl := Option.isNone_iff_eq_none.mp (by simpa using both)
    exact .same _
  | some token =>
    obtain ⟨token', rfl⟩ := Option.isSome_iff_exists.mp both
    unfold Point.afterSpending
    rw [standard]
    dsimp only
    obtain ⟨failure, left, right⟩ | ⟨request, request', left, right, spending⟩ :=
      RefreshBuilder.standard_cases c.server token token'
    · rw [left, right]
      exact .same _
    · rw [left, right]
      exact .spending rejection spending

theorem alike_remaining (standard : c.refreshBuilder = .standard) (command : Command)
    {phase phase' : Phase} (alike : phase.Alike c.server phase') :
    (remaining c command phase).Alike c.server (remaining c command phase') := by
  induction phase using remaining.induct c command generalizing phase' with
  | case1 result =>
    cases alike
    rw [remaining_finished]
    exact .done result
  | case2 p ih =>
    cases alike with
    | spending rejection spending =>
      rw [remaining_going, remaining_going]
      exact .send (.inr spending) _ fun reply => ih reply (.same _)
    | same =>
      rw [remaining_going]
      -- At two points a refresh token is read: to see whether there is one, and to spend it.
      cases p with
      | readRefresh rejected rejection =>
        refine .readRefresh fun token token' both => ih token ?_
        simp only [Point.next, both]
        exact .same _
      | spendRefresh rejection =>
        exact .readRefresh fun token token' both =>
          ih token (alike_after_spending standard rejection both)
      | _ => exact .same (by simp) fun reply => ih reply (.same _)

theorem alike_perform (standard : c.refreshBuilder = .standard) (errand : Errand) :
    (c.perform errand).run.Alike c.server (c.perform errand).run := by
  rw [perform_executing]
  cases errand.command? c with
  | error failure => exact .done _
  | ok command =>
    let call := c.execute command >>= fun response => Call.ofExcept (errand.read command response)
    change Procedure.Alike c.server call.run call.run
    rw [ExceptT.run_bind, execute_remaining]
    refine (alike_remaining standard command (.same _)).bind fun result => ?_
    cases result <;> exact .done _

end Client

namespace Scenario

inductive Event.Twins (server : Url) : Event → Event → Prop
  | same (e : Event) : Twins server e e
  | sent {c c' : Command} (spending : c.Spending server c') (options : SendOptions) :
      Twins server (.sent c options) (.sent c' options)
  | requested {c c' : Command} (spending : c.Spending server c') {r r' : Http.Request}
      (left : Http.Request.ofCommand? c = some r) (right : Http.Request.ofCommand? c' = some r')
      (bodies : r' = { r with body := r'.body }) :
      Twins server (.requested r) (.requested r')

inductive World.Alike (server : Url) (w : World) : World → Prop
  | apart {tokens : TokenPair} {events : List Event} (access : tokens.access = w.tokens.access)
      (refresh : tokens.refresh.isSome = w.tokens.refresh.isSome)
      (twins : List.Forall₂ (Event.Twins server) w.events events) :
      Alike server w { w with tokens, events }

section Requests

variable {server : Url} {c c' : Command}

theorem twins_sent (twins : c.Twins server c') (options : SendOptions) :
    Event.Twins server (.sent c options) (.sent c' options) := by
  obtain rfl | spending := twins
  · exact .same _
  · exact .sent spending options

theorem twins_requested (twins : c.Twins server c') :
    Http.Request.ofCommand? c = none ∧ Http.Request.ofCommand? c' = none ∨
      ∃ r r', Http.Request.ofCommand? c = some r ∧ Http.Request.ofCommand? c' = some r' ∧
        Event.Twins server (.requested r) (.requested r') := by
  obtain rfl | spending := twins
  · cases asked : Http.Request.ofCommand? c' with
    | none => exact .inl ⟨rfl, rfl⟩
    | some r => exact .inr ⟨r, r, rfl, rfl, .same _⟩
  · have headers : Http.headersOf c' = Http.headersOf c := by
      obtain ⟨token, left⟩ := spending.left
      obtain ⟨token', right⟩ := spending.right
      have left := RefreshBuilder.standard_body left
      have right := RefreshBuilder.standard_body right
      rw [Http.headersOf, Http.headersOf, left, right, spending.bodies]
    by_cases legal : (c.headers.entries.all fun header =>
        Http.isHeaderName header.1 && Http.isHeaderValue header.2) = true
    · have left : Http.Request.ofCommand? c = some _ := if_pos legal
      have right : Http.Request.ofCommand? c' = some _ := if_pos (by rwa [spending.bodies])
      refine .inr ⟨_, _, left, right, .requested spending left right ?_⟩
      rw [headers]
      rw [spending.bodies]
    · refine .inl ⟨if_neg legal, if_neg ?_⟩
      rwa [spending.bodies]

end Requests

namespace World

variable {server : Url} {w w' : World}

theorem Alike.events_twinned (alike : w.Alike server w') :
    List.Forall₂ (Event.Twins server) w.events w'.events := by
  cases alike with
  | apart access refresh twinned => exact twinned

theorem Alike.access_eq (alike : w.Alike server w') : w'.tokens.access = w.tokens.access := by
  cases alike with
  | apart access refresh twinned => exact access

theorem Alike.record (alike : w.Alike server w') {e e' : Event} (twins : e.Twins server e') :
    (w.record e).Alike server (w'.record e') := by
  cases alike with
  | apart access refresh events =>
    exact .apart access refresh (List.rel_append events (.cons twins .nil))

theorem Alike.apply (alike : w.Alike server w') (change : Change) :
    (w.apply change).Alike server (w'.apply change) := by
  obtain ⟨access, refresh, valid⟩ := change
  cases alike with
  | apart accesses refreshes events =>
    refine .apart ?_ ?_ events
    · exact congrArg access.getD accesses
    · cases refresh with
      | none => exact refreshes
      | some token => rfl

theorem Alike.reply (alike : w.Alike server w') {c c' : Command} (twins : c.Twins server c') :
    (w'.reply c').1 = (w.reply c).1 ∧ (w.reply c).2.Alike server (w'.reply c').2 := by
  cases alike with
  | @apart tokens events access refresh twinned =>
    have refuses : ({ w with tokens, events } : World).Refuses c' ↔ w.Refuses c := by
      unfold World.Refuses
      rw [twins.path_eq, twins.bearer_eq]
    unfold World.reply
    rw [twins.path_eq]
    by_cases refused : w.Refuses c
    · rw [if_pos refused, if_pos (refuses.mpr refused)]
      exact ⟨rfl, .apart access refresh twinned⟩
    · rw [if_neg refused, if_neg (mt refuses.mp refused)]
      refine ⟨rfl, Alike.apply ?_ _⟩
      exact .apart access refresh twinned

theorem Alike.exchange (alike : w.Alike server w') {c c' : Command} (twins : c.Twins server c')
    (options : SendOptions) :
    (w'.exchange c' options).1 = (w.exchange c options).1 ∧
      (w.exchange c options).2.Alike server (w'.exchange c' options).2 := by
  have link : w'.link = w.link := by
    cases alike
    rfl
  unfold World.exchange
  rw [link]
  cases w.link with
  | direct => exact (alike.record (twins_sent twins options)).reply twins
  | http listening =>
    obtain ⟨left, right⟩ | ⟨r, r', left, right, twinned⟩ := twins_requested twins
    · rw [left, right]
      exact ⟨rfl, alike⟩
    · rw [left, right]
      cases listening with
      | false => exact ⟨rfl, alike⟩
      | true => exact (alike.record twinned).reply twins

theorem Alike.send (alike : w.Alike server w') (who : Nat) {c c' : Command}
    (twins : c.Twins server c') (options : SendOptions) :
    (World.answer who (.send c' options) w').1 = (World.answer who (.send c options) w).1 ∧
      (World.answer who (.send c options) w).2.Alike server
        (World.answer who (.send c' options) w').2 := by
  obtain ⟨reply, after⟩ := alike.exchange twins options
  refine ⟨?_, after⟩
  simp only [World.answer]
  rw [reply, twins.path_eq]

theorem Alike.answer (alike : w.Alike server w') (who : Nat) {op : Operation}
    (other : op ≠ .readToken .refresh) :
    (World.answer who op w').1 = (World.answer who op w).1 ∧
      (World.answer who op w).2.Alike server (World.answer who op w').2 := by
  cases op with
  | send c options => exact alike.send who (.inl rfl) options
  | readToken kind =>
    cases alike with
    | apart access refresh twinned =>
      cases kind with
      | refresh => exact absurd rfl other
      | access => exact ⟨access, .apart access refresh twinned⟩
  | writeToken kind token =>
    refine ⟨rfl, Alike.record ?_ (.same _)⟩
    cases alike with
    | apart access refresh twinned =>
      cases kind with
      | access => exact .apart rfl refresh twinned
      | refresh => exact .apart access rfl twinned
  | acquire lock timeout =>
    cases alike with
    | @apart tokens events access refresh twinned =>
      have moved (locks : LockTable) : ({ w.nextLockTurn.2 with locks } : World).Alike server
          { w.nextLockTurn.2 with locks, tokens, events } :=
        .apart access refresh twinned
      have turn (locks : LockTable) (granted : Bool) :=
        ((moved locks).record (.same (.lockTried lock timeout granted))).apply w.nextLockTurn.1.change
      simp only [World.answer]
      by_cases denied : w.nextLockTurn.1.denied = true
      · rw [if_pos denied, if_pos (show (World.nextLockTurn
          { w with tokens, events }).1.denied = true from denied)]
        exact ⟨rfl, turn _ _⟩
      · rw [if_neg denied, if_neg (show ¬ (World.nextLockTurn
          { w with tokens, events }).1.denied = true from denied)]
        exact ⟨rfl, turn _ _⟩
  | release lock =>
    refine ⟨rfl, Alike.record ?_ (.same _)⟩
    cases alike with
    | apart access refresh twinned => exact .apart access refresh twinned
  | consult key maxAge =>
    cases alike with
    | apart access refresh twinned => exact ⟨rfl, .apart access refresh twinned⟩
  | remember key supports =>
    cases alike with
    | apart access refresh twinned => exact ⟨rfl, .apart access refresh twinned⟩

theorem Alike.run {α : Type} {p p' : Procedure α} (same : p.Alike server p')
    (alike : w.Alike server w') (who : Nat) :
    (p'.run (World.answer who) w').1 = (p.run (World.answer who) w).1 ∧
      (p.run (World.answer who) w).2.Alike server (p'.run (World.answer who) w').2 := by
  induction same generalizing w w' with
  | done result => exact ⟨rfl, alike⟩
  | readRefresh _ ih =>
    cases alike with
    | apart access refresh twinned => exact ih _ _ refresh (.apart access refresh twinned)
  | send twins options _ ih =>
    obtain ⟨reply, after⟩ := alike.send who twins options
    simp only [Procedure.run]
    rw [reply]
    exact ih _ after
  | same other _ ih =>
    obtain ⟨reply, after⟩ := alike.answer who other
    simp only [Procedure.run]
    rw [reply]
    exact ih _ after

theorem Alike.session {c : Client} (standard : c.refreshBuilder = .standard)
    (alike : w.Alike c.server w') (errands : List Errand) :
    (World.session c errands w').1 = (World.session c errands w).1 ∧
      (World.session c errands w).2.Alike c.server (World.session c errands w').2 := by
  induction errands generalizing w w' with
  | nil => exact ⟨rfl, alike⟩
  | cons errand errands ih =>
    obtain ⟨result, after⟩ := alike.run (Client.alike_perform standard errand) 0
    obtain ⟨results, last⟩ := ih after
    exact ⟨congrArg₂ List.cons result results, last⟩

end World

/-- Two sessions that start with different refresh tokens, and otherwise in the same world, end every
errand with the same result and store the same access token. What they send differs in the bodies of
refresh requests alone. -/
theorem refresh_token_stays_secret (c : Client) (standard : c.refreshBuilder = .standard)
    (errands : List Errand) (w : World) (access : Option String) (token token' : String) :
    let session (refresh : String) :=
      World.session c errands { w with tokens := ⟨access, some refresh⟩ }
    (session token).1 = (session token').1 ∧
      List.Forall₂ (Event.Twins c.server) (session token).2.events (session token').2.events ∧
      (session token).2.tokens.access = (session token').2.tokens.access := by
  intro session
  have start : ({ w with tokens := ⟨access, some token⟩ } : World).Alike c.server
      { w with tokens := ⟨access, some token'⟩ } :=
    .apart rfl rfl (List.forall₂_same.mpr fun e _ => .same e)
  obtain ⟨results, last⟩ := start.session standard errands
  exact ⟨results.symm, last.events_twinned, last.access_eq.symm⟩

theorem whoami_keeps_secret :
    let session (refresh : String) :=
      World.session Client.sample [.whoami]
        { World.expired with tokens := ⟨some "a1", some refresh⟩ }
    (session "r1").1 = (session "r2").1 ∧
      List.Forall₂ (Event.Twins Client.sample.server) (session "r1").2.events
        (session "r2").2.events ∧
      (session "r1").2.tokens = ⟨some "a2", some "r1"⟩ ∧
      (session "r2").2.tokens = ⟨some "a2", some "r2"⟩ := by
  intro session
  obtain ⟨results, events, -⟩ := refresh_token_stays_secret Client.sample rfl [.whoami]
    World.expired (some "a1") "r1" "r2"
  exact ⟨results, events, by decide +kernel, by decide +kernel⟩

end Scenario

end MatrixSession
