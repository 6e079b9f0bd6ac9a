import MatrixSession.Procedure

/-!
Transcripts: what a run of a procedure asked of its surroundings, and what it was told. The
surroundings may answer in any way, and differently each time, so a fact about all transcripts of a
procedure holds whatever others do between two of its operations.
-/
namespace MatrixSession

def TokenPair.renewed (pair : TokenPair) (tokens : RefreshedTokens) : TokenPair :=
  ⟨some tokens.access, tokens.refresh.or pair.refresh⟩

structure Exchange where
  operation : Operation
  reply : operation.Reply

namespace Exchange

def sent? (e : Exchange) : Option Command :=
  match e.operation with
  | .send command _ => some command
  | _ => none

def request? (e : Exchange) : Option (Command × Except Failure Response) :=
  match e with
  | ⟨.send command _, reply⟩ => some (command, reply)
  | _ => none

theorem filterMap_sent (exchanges : List Exchange) :
    exchanges.filterMap sent? = (exchanges.filterMap request?).map (·.1) := by
  have each (e : Exchange) : e.sent? = e.request?.map (·.1) := by
    obtain ⟨op, reply⟩ := e
    cases op <;> rfl
  rw [List.map_filterMap]
  exact congrArg (List.filterMap · exchanges) (funext each)

def store (tokens : TokenPair) (e : Exchange) : TokenPair :=
  match e.operation with
  | .writeToken kind token => tokens.put kind (some token)
  | _ => tokens

end Exchange

namespace Procedure

variable {α β σ : Type} (answer : (op : Operation) → σ → op.Reply × σ)

theorem bind_assoc {γ : Type} (p : Procedure α) (f : α → Procedure β) (g : β → Procedure γ) :
    (p >>= f) >>= g = p >>= fun a => f a >>= g := by
  induction p with
  | done result => rfl
  | perform op next ih => exact congrArg (perform op) (funext ih)

instance : LawfulMonad Procedure :=
  LawfulMonad.mk' _
    (fun p => by
      induction p with
      | done result => rfl
      | perform op next ih => exact congrArg (perform op) (funext ih))
    (fun _ _ => rfl) Procedure.bind_assoc

def transcript : Procedure α → σ → List Exchange
  | done _, _ => []
  | perform op next, s =>
    ⟨op, (answer op s).1⟩ :: transcript (next (answer op s).1) (answer op s).2

theorem transcript_bind (p : Procedure α) (f : α → Procedure β) (s : σ) :
    (p >>= f).transcript answer s =
      p.transcript answer s ++
        (f (p.run answer s).1).transcript answer (p.run answer s).2 := by
  induction p generalizing s with
  | done result => rfl
  | perform op next ih => exact congrArg (_ :: ·) (ih _ _)

theorem mem_transcript {p : Procedure α} {s : σ} {e : Exchange}
    (mem : e ∈ p.transcript answer s) : ∃ s', (answer e.operation s').1 = e.reply := by
  induction p generalizing s with
  | done result => contradiction
  | perform op next ih =>
    obtain rfl | mem := List.mem_cons.mp mem
    · exact ⟨s, rfl⟩
    · exact ih _ mem

theorem transcript_read (p : Call α) (read : α → Except Failure β) (s : σ) :
    (p >>= fun a => Call.ofExcept (read a)).run.transcript answer s = p.run.transcript answer s := by
  rw [ExceptT.run_bind, transcript_bind]
  cases (p.run.run answer s).1 with
  | ok a => exact List.append_nil _
  | error failure => exact List.append_nil _

theorem run_read (p : Call α) (read : α → Except Failure β) (s : σ) :
    ((p >>= fun a => Call.ofExcept (read a)).run.run answer s).2 = (p.run.run answer s).2 := by
  rw [ExceptT.run_bind, run_bind]
  cases (p.run.run answer s).1 with
  | ok a => rfl
  | error failure => rfl

theorem result_read (p : Call α) (read : α → Except Failure β) (s : σ) :
    ((p >>= fun a => Call.ofExcept (read a)).run.run answer s).1 =
      (p.run.run answer s).1 >>= read := by
  rw [ExceptT.run_bind, run_bind]
  cases (p.run.run answer s).1 with
  | ok a => rfl
  | error failure => rfl

end Procedure

/-- From `s`, the surroundings give the replies of `exchanges` in order, and end in `s'`. -/
def Leads {σ : Type} (answer : (op : Operation) → σ → op.Reply × σ) : σ → List Exchange → σ → Prop
  | s, [], s' => s = s'
  | s, e :: rest, s' =>
    (answer e.operation s).1 = e.reply ∧ Leads answer (answer e.operation s).2 rest s'

namespace Leads

variable {α σ : Type} {answer : (op : Operation) → σ → op.Reply × σ}

theorem transcript (p : Procedure α) (s : σ) :
    Leads answer s (p.transcript answer s) (p.run answer s).2 := by
  induction p generalizing s with
  | done result => rfl
  | perform op next ih => exact ⟨rfl, ih _ _⟩

theorem append {s s' : σ} {first rest : List Exchange} :
    Leads answer s (first ++ rest) s' ↔
      ∃ middle, Leads answer s first middle ∧ Leads answer middle rest s' := by
  induction first generalizing s with
  | nil => exact ⟨fun h => ⟨s, rfl, h⟩, fun ⟨_, same, h⟩ => same ▸ h⟩
  | cons e first ih =>
    simp only [List.cons_append, Leads, ih]
    exact ⟨fun ⟨h, middle, l, r⟩ => ⟨middle, ⟨h, l⟩, r⟩, fun ⟨middle, ⟨h, l⟩, r⟩ => ⟨h, middle, l, r⟩⟩

end Leads

end MatrixSession
