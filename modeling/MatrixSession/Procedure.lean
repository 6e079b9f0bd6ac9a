import MatrixSession.Command
import MatrixSession.Discovery
import MatrixSession.Failure
import MatrixSession.Response
import MatrixSession.Token

/-!
What a session does, step by step. A procedure names one operation on its surroundings after the
other and goes on with the reply, so the surroundings, and whoever else works with them between
two steps, are left open. `run` answers the operations from a state.
-/
namespace MatrixSession

/-- How a command is sent. With `statusErrors` a response that is no success is a failure. Times
    are in milliseconds. -/
structure SendOptions where
  statusErrors : Bool
  timeout : Option Nat
  deriving DecidableEq, Repr

def SendOptions.accept (options : SendOptions) (path : String) (response : Response) :
    Except Failure Response :=
  if options.statusErrors && !response.isSuccess then
    .error (.httpStatus response.status path response.text)
  else .ok response

inductive Operation where
  | readToken (kind : TokenKind)
  | writeToken (kind : TokenKind) (token : String)
  | send (command : Command) (options : SendOptions)
  | acquire (lock : String) (timeout : Nat)
  | release (lock : String)
  | consult (key : String) (maxAge : Option Nat)
  | remember (key : String) (supports : ServerSupports)

@[reducible]
def Operation.Reply : Operation → Type
  | readToken _ => Option String
  | send .. => Except Failure Response
  | acquire .. => Bool
  | consult .. => Option ServerSupports
  | writeToken .. | release _ | remember .. => Unit

inductive Procedure (α : Type) where
  | done (result : α)
  | perform (op : Operation) (next : op.Reply → Procedure α)

namespace Procedure

variable {α β σ : Type}

protected def bind : Procedure α → (α → Procedure β) → Procedure β
  | done result, f => f result
  | perform op next, f => perform op fun reply => (next reply).bind f

instance : Monad Procedure where
  pure := done
  bind := Procedure.bind

def ask (op : Operation) : Procedure op.Reply := perform op done

def run (answer : (op : Operation) → σ → op.Reply × σ) : Procedure α → σ → α × σ
  | done result, s => (result, s)
  | perform op next, s =>
    let (reply, s) := answer op s
    (next reply).run answer s

def interpret {m : Type → Type} [Monad m] (carryOut : (op : Operation) → m op.Reply) :
    Procedure α → m α
  | done result => pure result
  | perform op next => do
    let reply ← carryOut op
    (next reply).interpret carryOut

theorem run_bind (answer : (op : Operation) → σ → op.Reply × σ) (p : Procedure α)
    (f : α → Procedure β) (s : σ) :
    (p >>= f).run answer s = (f (p.run answer s).1).run answer (p.run answer s).2 := by
  induction p generalizing s with
  | done result => rfl
  | perform op next ih => exact ih _ _

end Procedure

abbrev Call := ExceptT Failure Procedure

namespace Call

variable {α : Type}

def ask (op : Operation) : Call op.Reply := ExceptT.lift (Procedure.ask op)

def ofExcept (result : Except Failure α) : Call α := ExceptT.mk (pure result)

def send (command : Command) (options : SendOptions) : Call Response :=
  ExceptT.mk (Procedure.ask (.send command options))

/-- Runs `body` while a lock is held, and gives the lock back however `body` ends. Without the
    lock nothing is run. -/
def underLock (lock : String) (timeout : Nat) (body : Call α) : Call (Option α) :=
  ExceptT.mk do
    if ← Procedure.ask (.acquire lock timeout) then
      let result ← body.run
      Procedure.ask (.release lock)
      pure (result.map some)
    else pure (.ok none)

end Call

end MatrixSession
