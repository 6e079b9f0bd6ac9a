import MatrixSession.Client.Execute
import MatrixSession.Lock
import Mathlib.Logic.Function.Basic
import Mathlib.Logic.Relation

/-!
Any number of calls at once, over one store of tokens, one set of locks, and one server. The calls
take turns in any order, one operation at a time. How locks are handed on and how the server answers
are parameters.
-/
namespace MatrixSession

/-- Locks with at most one holder each. Who comes next is up to the rule, but a holder stays one
    until the lock is released, whoever else asks for it or gives up waiting. -/
structure LockRule where
  State : Type
  holder : State → String → Option Nat
  Requests : State → String → Nat → State → Prop
  Withdraws : State → String → Nat → State → Prop
  Releases : State → String → State → Prop
  requests_keep : ∀ {s s' name who other}, Requests s name who s' →
    holder s name = some other → holder s' name = some other
  withdraws_keep : ∀ {s s' name who other}, Withdraws s name who s' →
    holder s name = some other → other ≠ who → holder s' name = some other

namespace LockRule

/-- Locks that are handed on in the order in which they were asked for. One who was handed the lock
    no longer gives up. -/
@[reducible]
def table : LockRule where
  State := LockTable
  holder t name := (t.get name).holder
  Requests t name who t' := t' = t.request name who
  Withdraws t name who t' := ¬ t.Holds name who ∧ t' = t.withdraw name who
  Releases t name t' := t' = t.release name
  requests_keep := by
    rintro t _ name who other rfl held
    simp [LockTable.request, LockTable.get_update, Lock.request, held]
  withdraws_keep := by
    rintro t _ name who other ⟨-, rfl⟩ held -
    simp [LockTable.withdraw, LockTable.get_update, Lock.withdraw, held]

def Patient (rule : LockRule) : Prop := ∀ s name who s', ¬ rule.Withdraws s name who s'

@[reducible]
def patiently (rule : LockRule) : LockRule :=
  { rule with
    Withdraws := fun _ _ _ _ => False
    withdraws_keep := False.elim }

theorem patient_patiently (rule : LockRule) : rule.patiently.Patient := fun _ _ _ _ => id

end LockRule

/-- How a server answers a command, and the refreshes that it has accepted before and after. The
    last one stands first. -/
abbrev ServerRule :=
  List RefreshedTokens → Command → Except Failure Response → List RefreshedTokens → Prop

inductive Stand (α : Type) where
  | ready (rest : Procedure α)
  | inLine (lock : String) (next : Bool → Procedure α)

structure Sending where
  who : Nat
  command : Command
  reply : Except Failure Response

/-- What the calls share. `ledger` lists the accepted refreshes, and `sendings` all that was sent; in
    both the last one stands first. -/
structure Shared (rule : LockRule) where
  tokens : TokenPair
  locks : rule.State
  ledger : List RefreshedTokens
  sendings : List Sending

namespace Shared

variable {rule : LockRule}

def requests (s : Shared rule) : List Command := s.sendings.map Sending.command

def sentBy (s : Shared rule) (who : Nat) : List Sending := s.sendings.filter (·.who = who)

end Shared

/-- An operation of the call `who` is answered. Locks are not taken in this way, but by waiting for
    them. -/
def Answers {rule : LockRule} (server : ServerRule) (who : Nat) :
    (op : Operation) → op.Reply → Shared rule → Shared rule → Prop
  | .readToken kind, token, s, s' => token = s.tokens.get kind ∧ s' = s
  | .writeToken kind token, _, s, s' => s' = { s with tokens := s.tokens.put kind (some token) }
  | .send command _, reply, s, s' =>
    ∃ ledger, server s.ledger command reply ledger ∧
      s' = { s with ledger, sendings := ⟨who, command, reply⟩ :: s.sendings }
  | .acquire .., _, _, _ => False
  | .release lock, _, s, s' => ∃ locks, rule.Releases s.locks lock locks ∧ s' = { s with locks }
  | .consult .., _, s, s' => s' = s
  | .remember .., _, s, s' => s' = s

namespace Answers

variable {rule : LockRule} {server : ServerRule} {who : Nat} {op : Operation} {reply : op.Reply}
  {s s' : Shared rule}

theorem others (answers : Answers server who op reply s s') {other : Nat} (differs : other ≠ who) :
    s'.sentBy other = s.sentBy other := by
  cases op with
  | send command options =>
    obtain ⟨ledger, -, rfl⟩ := answers
    exact List.filter_cons_of_neg (by simpa using differs.symm)
  | readToken kind =>
    obtain ⟨-, rfl⟩ := answers
    rfl
  | release lock =>
    obtain ⟨locks, -, rfl⟩ := answers
    rfl
  | acquire lock timeout => exact answers.elim
  | writeToken | consult | remember =>
    obtain rfl := answers
    rfl

end Answers

theorem Shared.sent_by_cons {rule : LockRule} (s : Shared rule) (who : Nat) (command : Command)
    (reply : Except Failure Response) (ledger : List RefreshedTokens) :
    ({ s with ledger, sendings := ⟨who, command, reply⟩ :: s.sendings } : Shared rule).sentBy who =
      ⟨who, command, reply⟩ :: s.sentBy who :=
  List.filter_cons_of_pos (by simp)

/-- `n` executions, each with a client and a command of its own, around one lock. What the clients
    build to refresh is known as a refresh request. -/
structure Party (n : Nat) where
  client : Fin n → Client
  command : Fin n → Command
  lock : String
  isRefresh : Command → Bool
  lock_shared : ∀ i, (client i).config.lockName = lock
  refresh_built : ∀ i token request,
    (client i).refreshBuilder (client i).server token = .ok request → isRefresh request = true

/-- No call is given a refresh request to execute, with or without an access token in it. -/
structure Party.Apart {n : Nat} (party : Party n) : Prop where
  own_public : ∀ i, party.isRefresh (party.command i) = false
  own_authorized : ∀ i token, party.isRefresh ((party.command i).withBearer token) = false

structure Crowd (rule : LockRule) (n : Nat) where
  shared : Shared rule
  calls : Fin n → Stand (Except Failure Response)

namespace Crowd

variable {rule : LockRule} {n : Nat}

inductive Step (server : ServerRule) (s : Crowd rule n) : Crowd rule n → Prop
  | operate (i : Fin n) {op : Operation} {next : op.Reply → Procedure (Except Failure Response)}
      (reply : op.Reply) {shared : Shared rule} (ready : s.calls i = .ready (.perform op next))
      (answers : Answers server i op reply s.shared shared) :
      Step server s ⟨shared, Function.update s.calls i (.ready (next reply))⟩
  | request (i : Fin n) {lock : String} {timeout : Nat}
      {next : Bool → Procedure (Except Failure Response)} {locks : rule.State}
      (ready : s.calls i = .ready (.perform (.acquire lock timeout) next))
      (requests : rule.Requests s.shared.locks lock i locks) :
      Step server s ⟨{ s.shared with locks }, Function.update s.calls i (.inLine lock next)⟩
  | enter (i : Fin n) {lock : String} {next : Bool → Procedure (Except Failure Response)}
      (waiting : s.calls i = .inLine lock next)
      (granted : rule.holder s.shared.locks lock = some i) :
      Step server s ⟨s.shared, Function.update s.calls i (.ready (next true))⟩
  | giveUp (i : Fin n) {lock : String} {next : Bool → Procedure (Except Failure Response)}
      {locks : rule.State} (waiting : s.calls i = .inLine lock next)
      (withdraws : rule.Withdraws s.shared.locks lock i locks) :
      Step server s ⟨{ s.shared with locks }, Function.update s.calls i (.ready (next false))⟩

def start (rule : LockRule) (party : Party n) (tokens : TokenPair) (locks : rule.State) :
    Crowd rule n :=
  ⟨⟨tokens, locks, [], []⟩, fun i => .ready ((party.client i).execute (party.command i)).run⟩

def Reachable (server : ServerRule) (party : Party n) (tokens : TokenPair) (locks : rule.State) :
    Crowd rule n → Prop :=
  Relation.ReflTransGen (Step server) (start rule party tokens locks)

end Crowd

end MatrixSession
