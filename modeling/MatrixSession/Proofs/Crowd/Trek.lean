import MatrixSession.Proofs.Crowd.Place
import MatrixSession.Proofs.Execution.Protocol

/-!
How far one call of a crowd gets while the others rest: to the line for the lock, under the lock to
its refresh request, from there to the stored tokens, and to its end. These treks show which states of
a crowd can be reached.
-/
namespace MatrixSession

open Client (Point)

variable {rule : LockRule} {server : ServerRule}

def Trek (server : ServerRule) (c : Client) (command : Command) (who : Nat) :
    Shared rule × Place → Shared rule × Place → Prop :=
  Relation.ReflTransGen fun a b => Move server c command who a.1 a.2 b.1 b.2

theorem Crowd.steps_of_trek {n : Nat} {party : Party n} {start : Crowd rule n}
    {shared shared' : Shared rule} {places : Fin n → Place} {place : Place}
    (steps : Relation.ReflTransGen (Step server) start (ofPlaces party shared places)) (i : Fin n)
    (trek : Trek server (party.client i) (party.command i) i (shared, places i) (shared', place)) :
    Relation.ReflTransGen (Step server) start
      (ofPlaces party shared' (Function.update places i place)) := by
  have along (b : Shared rule × Place)
      (trek : Trek server (party.client i) (party.command i) i (shared, places i) b) :
      Relation.ReflTransGen (Step server) start
        (ofPlaces party b.1 (Function.update places i b.2)) := by
    induction trek with
    | refl =>
      rw [Function.update_eq_self]
      exact steps
    | @tail between last _ move ih =>
      refine ih.tail ?_
      have here : Function.update places i between.2 i = between.2 := Function.update_self ..
      rw [← here] at move
      have step := step_of_move move
      rwa [Function.update_idem] at step
  exact along _ trek

namespace Trek

variable {c : Client} {command : Command} {who : Nat}
  {a : Shared rule × Place} {s s' : Shared rule} {place place' : Place} {access token : String}
  {rejection : Response} {request : Command} {locks : rule.State}

theorem andThen (trek : Trek server c command who a (s, place))
    (move : Move server c command who s place s' place') :
    Trek server c command who a (s', place') :=
  Relation.ReflTransGen.tail trek move

theorem refl {b : Shared rule × Place} : Trek server c command who b b :=
  Relation.ReflTransGen.refl

theorem to_first (stored : s.tokens.access = some access) :
    Trek server c command who (s, .within (.going .readAccess))
      (s, .within (.going (.sendFirst access))) :=
  refl.andThen (.operate .readAccess (some access) ⟨stored.symm, rfl⟩)

theorem to_accepted {response : Response} {ledger : List RefreshedTokens}
    (stored : s.tokens.access = some access)
    (serves : server s.ledger (command.withBearer access) (.ok response) ledger)
    (authorized : response.status ≠ 401) :
    Trek server c command who (s, .within (.going .readAccess))
      ({ s with ledger, sendings := ⟨who, command.withBearer access, .ok response⟩ :: s.sendings },
        .within (.finished (.ok response))) := by
  have next : (Point.sendFirst access).next c command (.ok response) = .finished (.ok response) :=
    if_neg authorized
  rw [← next]
  exact (to_first stored).andThen
    (.operate (.sendFirst access) (.ok response) ⟨ledger, serves, rfl⟩)

theorem to_rejection (stored : s.tokens.access = some access)
    (rejects : server s.ledger (command.withBearer access) (.ok rejection) s.ledger)
    (unauthorized : rejection.status = 401) :
    Trek server c command who (s, .within (.going .readAccess))
      ({ s with sendings := ⟨who, command.withBearer access, .ok rejection⟩ :: s.sendings },
        .within (.going (.readRefresh access rejection))) := by
  have next : (Point.sendFirst access).next c command (.ok rejection) =
      .going (.readRefresh access rejection) := if_pos unauthorized
  rw [← next]
  exact (to_first stored).andThen
    (.operate (.sendFirst access) (.ok rejection) ⟨s.ledger, rejects, rfl⟩)

theorem to_refused (tokens : s.tokens = ⟨some access, none⟩)
    (rejects : server s.ledger (command.withBearer access) (.ok rejection) s.ledger)
    (unauthorized : rejection.status = 401) :
    Trek server c command who (s, .within (.going .readAccess))
      ({ s with sendings := ⟨who, command.withBearer access, .ok rejection⟩ :: s.sendings },
        .within (.finished (.ok rejection))) :=
  (to_rejection (by rw [tokens]) rejects unauthorized).andThen
    (.operate (.readRefresh access rejection) none ⟨by rw [tokens]; rfl, rfl⟩)

theorem to_line (tokens : s.tokens = ⟨some access, some token⟩)
    (rejects : server s.ledger (command.withBearer access) (.ok rejection) s.ledger)
    (unauthorized : rejection.status = 401) (feature : c.features.has .refreshTokenV3 = true)
    (requests : rule.Requests s.locks c.config.lockName who locks) :
    Trek server c command who (s, .within (.going .readAccess))
      ({ s with locks, sendings := ⟨who, command.withBearer access, .ok rejection⟩ :: s.sendings },
        .inLine access rejection) := by
  let sent : Shared rule :=
    { s with sendings := ⟨who, command.withBearer access, .ok rejection⟩ :: s.sendings }
  have looked : Move server c command who sent (.within (.going (.readRefresh access rejection)))
      sent (.within (.going (.takeLock access rejection))) := by
    have next : (Point.readRefresh access rejection).next c command (some token) =
        .going (.takeLock access rejection) := if_pos feature
    rw [← next]
    exact .operate (.readRefresh access rejection) (some token) ⟨by rw [tokens]; rfl, rfl⟩
  exact ((to_rejection (by rw [tokens]) rejects unauthorized).andThen looked).andThen
    (.request access rejection requests)

theorem to_spending (granted : rule.holder s.locks c.config.lockName = some who)
    (stored : s.tokens.access = some access) :
    Trek server c command who (s, .inLine access rejection)
      (s, .within (.going (.spendRefresh rejection))) := by
  have next : (Point.readAgain access rejection).next c command (some access) =
      .going (.spendRefresh rejection) := if_pos rfl
  rw [← next]
  exact (refl.andThen (.enter access rejection granted)).andThen
    (.operate (.readAgain access rejection) (some access) ⟨stored.symm, rfl⟩)

theorem to_unbuilt {failure : Failure} (granted : rule.holder s.locks c.config.lockName = some who)
    (tokens : s.tokens = ⟨some access, some token⟩)
    (unbuilt : c.refreshBuilder c.server token = .error failure)
    (releases : rule.Releases s.locks c.config.lockName locks) :
    Trek server c command who (s, .inLine access rejection)
      ({ s with locks }, .within (.finished (.error failure))) := by
  have spent : Move server c command who s (.within (.going (.spendRefresh rejection))) s
      (.within (.going (.giveBack rejection (.error failure)))) := by
    have after : Point.afterSpending c rejection (some token) =
        .giveBack rejection (.error failure) := by
      rw [Point.afterSpending, unbuilt]
    rw [← after]
    exact .operate (.spendRefresh rejection) (some token) ⟨by rw [tokens]; rfl, rfl⟩
  exact ((to_spending granted (by rw [tokens])).andThen spent).andThen
    (.operate (.giveBack rejection (.error failure)) () ⟨locks, releases, rfl⟩)

theorem to_refresh (granted : rule.holder s.locks c.config.lockName = some who)
    (tokens : s.tokens = ⟨some access, some token⟩)
    (built : c.refreshBuilder c.server token = .ok request) :
    Trek server c command who (s, .inLine access rejection)
      (s, .within (.going (.sendRefresh rejection request))) := by
  have after : Point.afterSpending c rejection (some token) = .sendRefresh rejection request := by
    rw [Point.afterSpending, built]
  rw [← after]
  exact (to_spending granted (by rw [tokens])).andThen
    (.operate (.spendRefresh rejection) (some token) ⟨by rw [tokens]; rfl, rfl⟩)

theorem to_renewed {brought : RefreshedTokens} {response : Response}
    (serves : server s.ledger request (.ok response) (brought :: s.ledger))
    (success : response.status = 200)
    (decoded : response.decode RefreshedTokens.ofBytes? = .ok brought)
    (fresh : brought.refresh = some token)
    (releases : rule.Releases s.locks c.config.lockName locks) :
    Trek server c command who (s, .within (.going (.sendRefresh rejection request)))
      (⟨⟨some brought.access, some token⟩, locks, brought :: s.ledger,
          ⟨who, request, .ok response⟩ :: s.sendings⟩, .within (.going .readRenewed)) := by
  let sent : Shared rule :=
    { s with
      ledger := brought :: s.ledger
      sendings := ⟨who, request, .ok response⟩ :: s.sendings }
  have refreshed : Move server c command who s (.within (.going (.sendRefresh rejection request)))
      sent (.within (.going (.storeAccess rejection brought))) := by
    have after : Point.afterRefresh rejection (.ok response) = .storeAccess rejection brought :=
      (Client.after_refresh_brought
        (Client.brought_eq_some.mpr ⟨response, rfl, success, decoded⟩) rejection).1
    rw [← after]
    exact .operate (.sendRefresh rejection request) (.ok response) ⟨_, serves, rfl⟩
  have stored : Move server c command who sent (.within (.going (.storeAccess rejection brought)))
      { sent with tokens := s.tokens.put .access (some brought.access) }
      (.within (.going (.storeRefresh rejection token))) := by
    have after : Point.afterAccess rejection brought = .storeRefresh rejection token := by
      rw [Point.afterAccess, fresh]
    rw [← after]
    exact .operate (.storeAccess rejection brought) () rfl
  have finished := (((refl.andThen refreshed).andThen stored).andThen
    (.operate (.storeRefresh rejection token) () rfl)).andThen
    (.operate (.giveBack rejection (.ok true)) () ⟨locks, releases, rfl⟩)
  exact finished

theorem to_taken_over (granted : rule.holder s.locks c.config.lockName = some who)
    (differs : s.tokens.access ≠ some access)
    (releases : rule.Releases s.locks c.config.lockName locks) :
    Trek server c command who (s, .inLine access rejection)
      ({ s with locks }, .within (.going .readRenewed)) := by
  have again : Move server c command who s (.within (.going (.readAgain access rejection))) s
      (.within (.going (.giveBack rejection (.ok true)))) := by
    have next : (Point.readAgain access rejection).next c command s.tokens.access =
        .going (.giveBack rejection (.ok true)) := if_neg differs
    rw [← next]
    exact .operate (.readAgain access rejection) s.tokens.access ⟨rfl, rfl⟩
  exact ((refl.andThen (.enter access rejection granted)).andThen again).andThen
    (.operate (.giveBack rejection (.ok true)) () ⟨locks, releases, rfl⟩)

theorem to_end {reply : Except Failure Response} (stored : s.tokens.access = some access)
    (serves : server s.ledger (command.withBearer access) reply s.ledger) :
    Trek server c command who (s, .within (.going .readRenewed))
      ({ s with sendings := ⟨who, command.withBearer access, reply⟩ :: s.sendings },
        .within (.finished reply)) := by
  have read : Move server c command who s (.within (.going .readRenewed)) s
      (.within (.going (.sendAgain access))) :=
    .operate .readRenewed (some access) ⟨stored.symm, rfl⟩
  exact (refl.andThen read).andThen (.operate (.sendAgain access) reply ⟨s.ledger, serves, rfl⟩)

end Trek

end MatrixSession
