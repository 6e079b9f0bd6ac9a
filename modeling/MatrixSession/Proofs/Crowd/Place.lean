import MatrixSession.Proofs.Crowd.Basic
import MatrixSession.Proofs.Execution.Point

/-!
Where the calls of a crowd are. A call of an execution is always at some place: at a point of the
execution, in line for the lock, or at its end. The steps of a crowd are exactly the moves of its
calls from place to place, so an invariant of the moves holds in every reachable state.
-/
namespace MatrixSession

inductive Place where
  | within (phase : Client.Phase)
  | inLine (rejected : String) (rejection : Response)

namespace Place

def stand (c : Client) (command : Command) : Place → Stand (Except Failure Response)
  | within phase => .ready (Client.remaining c command phase)
  | inLine rejected rejection =>
    .inLine c.config.lockName fun granted =>
      Client.remaining c command ((Client.Point.takeLock rejected rejection).next c command granted)

end Place

open Client (Point Phase)

variable {rule : LockRule} {n : Nat}

inductive Move (server : ServerRule) (c : Client) (command : Command) (who : Nat)
    (s : Shared rule) : Place → Shared rule → Place → Prop
  | operate (p : Point) (reply : (p.operation c command).Reply) {s' : Shared rule}
      (answers : Answers server who (p.operation c command) reply s s') :
      Move server c command who s (.within (.going p)) s' (.within (p.next c command reply))
  | request (rejected : String) (rejection : Response) {locks : rule.State}
      (requests : rule.Requests s.locks c.config.lockName who locks) :
      Move server c command who s (.within (.going (.takeLock rejected rejection)))
        { s with locks } (.inLine rejected rejection)
  | enter (rejected : String) (rejection : Response)
      (granted : rule.holder s.locks c.config.lockName = some who) :
      Move server c command who s (.inLine rejected rejection) s
        (.within (.going (.readAgain rejected rejection)))
  | giveUp (rejected : String) (rejection : Response) {locks : rule.State}
      (withdraws : rule.Withdraws s.locks c.config.lockName who locks) :
      Move server c command who s (.inLine rejected rejection)
        { s with locks } (.within (.finished (.ok rejection)))

theorem stand_eq_ready {c : Client} {command : Command} {place : Place} {op : Operation}
    {next : op.Reply → Procedure (Except Failure Response)}
    (same : place.stand c command = .ready (.perform op next)) :
    ∃ p, place = .within (.going p) ∧
      .perform (p.operation c command) (fun reply =>
        Client.remaining c command (p.next c command reply)) = Procedure.perform op next := by
  cases place with
  | inLine rejected rejection => contradiction
  | within phase =>
    have same := Stand.ready.inj same
    cases phase with
    | finished result =>
      rw [Client.remaining_finished] at same
      contradiction
    | going p =>
      rw [Client.remaining_going] at same
      exact ⟨p, rfl, same⟩

theorem stand_eq_in_line {c : Client} {command : Command} {place : Place} {lock : String}
    {next : Bool → Procedure (Except Failure Response)}
    (same : place.stand c command = .inLine lock next) :
    ∃ rejected rejection, place = .inLine rejected rejection ∧ lock = c.config.lockName ∧
      next = fun granted => Client.remaining c command
        ((Point.takeLock rejected rejection).next c command granted) := by
  cases place with
  | within phase => contradiction
  | inLine rejected rejection =>
    obtain ⟨rfl, rfl⟩ := Stand.inLine.inj same
    exact ⟨rejected, rejection, rfl, rfl, rfl⟩

theorem operation_eq_acquire {c : Client} {command : Command} {p : Point} {lock : String}
    {timeout : Nat} (same : p.operation c command = .acquire lock timeout) :
    ∃ rejected rejection, p = .takeLock rejected rejection := by
  cases p with
  | takeLock rejected rejection => exact ⟨rejected, rejection, rfl⟩
  | _ => exact nomatch same

namespace Crowd

def ofPlaces (party : Party n) (shared : Shared rule) (places : Fin n → Place) : Crowd rule n :=
  ⟨shared, fun i => (places i).stand (party.client i) (party.command i)⟩

theorem of_places_update (party : Party n) (shared shared' : Shared rule) (places : Fin n → Place)
    (i : Fin n) (place : Place) :
    ofPlaces party shared' (Function.update places i place) =
      ⟨shared', Function.update (ofPlaces party shared places).calls i
        (place.stand (party.client i) (party.command i))⟩ := by
  have calls : (fun j => (Function.update places i place j).stand (party.client j)
      (party.command j)) = Function.update (ofPlaces party shared places).calls i
        (place.stand (party.client i) (party.command i)) := by
    funext j
    by_cases same : j = i
    · subst same
      rw [Function.update_self, Function.update_self]
    · rw [Function.update_of_ne same, Function.update_of_ne same]
      rfl
  rw [ofPlaces, calls]

variable {server : ServerRule} {party : Party n} {shared : Shared rule} {places : Fin n → Place}

theorem calls_eq_done {i : Fin n} {result : Except Failure Response}
    (finished : places i = .within (.finished result)) :
    (ofPlaces party shared places).calls i = .ready (.done result) := by
  change (places i).stand (party.client i) (party.command i) = _
  rw [finished, Place.stand, Client.remaining_finished]

theorem move_of_step {s' : Crowd rule n} (step : Step server (ofPlaces party shared places) s') :
    ∃ i shared' place,
      Move server (party.client i) (party.command i) i shared (places i) shared' place ∧
        s' = ofPlaces party shared' (Function.update places i place) := by
  cases step with
  | @operate i op next reply shared' ready answers =>
    obtain ⟨p, here, same⟩ := stand_eq_ready ready
    cases same
    refine ⟨i, shared', .within (p.next _ _ reply), ?_, ?_⟩
    · rw [here]
      exact .operate p reply answers
    · rw [of_places_update party shared]
      rfl
  | @request i lock timeout next locks ready requests =>
    obtain ⟨p, here, same⟩ := stand_eq_ready ready
    obtain ⟨rejected, rejection, rfl⟩ := operation_eq_acquire (Procedure.perform.inj same).1
    cases same
    refine ⟨i, { shared with locks }, .inLine rejected rejection, ?_, ?_⟩
    · rw [here]
      exact .request rejected rejection requests
    · rw [of_places_update party shared]
      rfl
  | enter i waiting granted =>
    obtain ⟨rejected, rejection, here, rfl, rfl⟩ := stand_eq_in_line waiting
    refine ⟨i, shared, .within (.going (.readAgain rejected rejection)), ?_, ?_⟩
    · rw [here]
      exact .enter rejected rejection granted
    · rw [of_places_update party shared]
      rfl
  | @giveUp i lock next locks waiting withdraws =>
    obtain ⟨rejected, rejection, here, rfl, rfl⟩ := stand_eq_in_line waiting
    refine ⟨i, { shared with locks }, .within (.finished (.ok rejection)), ?_, ?_⟩
    · rw [here]
      exact .giveUp rejected rejection withdraws
    · rw [of_places_update party shared]
      rfl

theorem step_of_move {i : Fin n} {shared' : Shared rule} {place : Place}
    (move : Move server (party.client i) (party.command i) i shared (places i) shared' place) :
    Step server (ofPlaces party shared places)
      (ofPlaces party shared' (Function.update places i place)) := by
  have call : (ofPlaces party shared places).calls i =
      (places i).stand (party.client i) (party.command i) := rfl
  rw [of_places_update party shared]
  generalize here : places i = old at move call
  cases move with
  | operate p reply answers =>
    rw [Place.stand, Client.remaining_going] at call
    exact .operate i reply call answers
  | request rejected rejection requests =>
    rw [Place.stand, Client.remaining_going] at call
    exact .request i call requests
  | enter rejected rejection granted => exact .enter i call granted
  | giveUp rejected rejection withdraws => exact .giveUp i call withdraws

theorem start_eq_of_places (tokens : TokenPair) (locks : rule.State) :
    start rule party tokens locks =
      ofPlaces party ⟨tokens, locks, [], []⟩
        fun i => .within (.going (Point.first (party.command i))) := by
  unfold start ofPlaces Place.stand
  simp only [Client.execute_remaining]

theorem reachable_iff {tokens : TokenPair} {locks : rule.State} {s : Crowd rule n} :
    Reachable server party tokens locks s ↔
      Relation.ReflTransGen (Step server)
        (ofPlaces party ⟨tokens, locks, [], []⟩
          fun i => .within (.going (Point.first (party.command i)))) s := by
  unfold Reachable
  rw [start_eq_of_places]

theorem reachable_of_places (Inv : Shared rule → (Fin n → Place) → Prop) {tokens : TokenPair}
    {locks : rule.State}
    (first : Inv ⟨tokens, locks, [], []⟩ fun i => .within (.going (Point.first (party.command i))))
    (kept : ∀ (shared shared' : Shared rule) (places : Fin n → Place) (i : Fin n) (place : Place),
      Inv shared places →
      Move server (party.client i) (party.command i) i shared (places i) shared' place →
      Inv shared' (Function.update places i place))
    {s : Crowd rule n} (reachable : Reachable server party tokens locks s) :
    ∃ places, s = ofPlaces party s.shared places ∧ Inv s.shared places := by
  rw [reachable_iff] at reachable
  -- A state alone does not tell the places; they are carried along with the steps.
  induction reachable with
  | refl => exact ⟨_, rfl, first⟩
  | tail _ step ih =>
    obtain ⟨places, same, inv⟩ := ih
    rw [same] at step
    obtain ⟨i, shared', place, move, rfl⟩ := move_of_step step
    exact ⟨_, rfl, kept _ _ _ _ _ inv move⟩

end Crowd

end MatrixSession
