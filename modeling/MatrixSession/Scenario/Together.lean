import MatrixSession.Client.Execute
import MatrixSession.Scenario.World
import MatrixSession.Schedule

/-!
Several calls at once in a scripted world, on one thread with a virtual clock. A call goes on
until it has to wait: for a delayed reply, for a lock that another call holds, or at a barrier that
holds back refused requests until enough of them have arrived.
-/
namespace MatrixSession.Scenario

/-- Opens for good at the `threshold`-th arrival. With threshold zero it is open from the start. -/
structure Barrier where
  threshold : Nat
  arrivals : Nat
  deriving DecidableEq, Repr

namespace Barrier

def isOpen (b : Barrier) : Bool := b.threshold ≤ b.arrivals

def arrive (b : Barrier) : Barrier := { b with arrivals := b.arrivals + 1 }

end Barrier

structure Stage where
  world : World
  barrier : Barrier

inductive Standing (α : Type) where
  | ready (rest : Procedure α)
  | sleeping (wakeAt : Nat) (rest : Procedure α)
  | barred (rest : Procedure α)
  | queued (lock : String) (timeout deadline : Nat) (turn : LockTurn) (next : Bool → Procedure α)
  | finished (result : α)

namespace Standing

variable {α : Type}

def result? : Standing α → Option α
  | finished result => some result
  | _ => none

end Standing

namespace Stage

variable {α : Type}

def advance (who now : Nat) : Procedure α → Stage → Standing α × Stage
  | .done result, s => (.finished result, s)
  | .perform (.send command options) next, s =>
    let refused := decide (s.world.Refuses command)
    let (reply, world) := s.world.exchange command options
    let rest := next (reply.delivery.result options command.path)
    let barrier := if refused then s.barrier.arrive else s.barrier
    if refused && !barrier.isOpen then (.barred rest, ⟨world, barrier⟩)
    else if 0 < reply.delay then (.sleeping (now + reply.delay) rest, ⟨world, barrier⟩)
    else advance who now rest ⟨world, barrier⟩
  | .perform (.acquire lock timeout) next, s =>
    let (turn, world) := s.world.nextLockTurn
    if turn.denied then
      advance who now (next false) { s with world := world.endLockTry lock timeout turn false }
    else
      match world.locks.enter lock who now timeout with
      | (.waiting deadline, locks) =>
        (.queued lock timeout deadline turn next, { s with world := { world with locks } })
      | (.granted, locks) =>
        advance who now (next true)
          { s with world := { world with locks }.endLockTry lock timeout turn true }
      | (.refused, locks) =>
        advance who now (next false)
          { s with world := { world with locks }.endLockTry lock timeout turn false }
  | .perform op next, s =>
    let (reply, world) := World.answer who op s.world
    advance who now (next reply) { s with world }

def visit (s : Stage) (now who : Nat) : Standing α → Standing α × Stage
  | .ready rest => s.advance who now rest
  | .sleeping wakeAt rest =>
    if wakeAt ≤ now then s.advance who now rest else (.sleeping wakeAt rest, s)
  | .barred rest => if s.barrier.isOpen then s.advance who now rest else (.barred rest, s)
  | .queued lock timeout deadline turn next =>
    match s.world.locks.await lock who now deadline with
    | (.waiting deadline, locks) =>
      (.queued lock timeout deadline turn next, { s with world := { s.world with locks } })
    | (.granted, locks) =>
      { s with
        world := { s.world with locks }.endLockTry lock timeout turn true }.advance who now (next true)
    | (.refused, locks) =>
      { s with
        world := { s.world with locks }.endLockTry lock timeout turn false }.advance who now
          (next false)
  | .finished result => (.finished result, s)

def due (s : Stage) (now who : Nat) : Standing α → Option Nat
  | .ready _ => some now
  | .sleeping wakeAt _ => some wakeAt
  | .barred _ => if s.barrier.isOpen then some now else none
  | .queued lock _ deadline _ _ =>
    if s.world.locks.Holds lock who then some now else some deadline
  | .finished _ => none

def discipline : Discipline Stage (Standing α) where
  due s now who standing := due s now who standing
  visit s now who standing := visit s now who standing

end Stage

def World.performTogether {α : Type} (w : World) (threshold count waits : Nat) (call : Call α) :
    List (Option (Except Failure α)) × World :=
  let (standings, stage) := Stage.discipline.run ((waits + 1) * count) 0
    (List.replicate count (.ready call.run)) ⟨w, ⟨threshold, 0⟩⟩
  (standings.map Standing.result?, stage.world)

/-- Executes one command several times together. An execution waits for at most three replies and
    one lock. -/
def World.executeTogether (w : World) (threshold count : Nat) (client : Client)
    (command : Command) : List (Option (Except Failure Response)) × World :=
  w.performTogether threshold count 4 (client.execute command)

end MatrixSession.Scenario
