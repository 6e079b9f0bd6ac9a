import MatrixSession.Lock
import MatrixSession.Schedule

/-!
A race for named locks: all waiters start at once in list order, and each one that gets its lock
holds it for a while. One that holds it for no time gives it back before anyone else moves.
-/
namespace MatrixSession

structure Waiter where
  name : String
  timeout : Nat
  hold : Nat
  deriving DecidableEq, Repr

namespace Race

/-- Where a waiter stands. A finished one knows when it got its lock, if it did. -/
inductive Phase where
  | outside
  | waiting (deadline : Nat)
  | holding (since leaveAt : Nat)
  | finished (since : Option Nat)
  deriving DecidableEq, Repr

def Phase.since? : Phase → Option Nat
  | holding since _ => some since
  | finished since => since
  | outside | waiting _ => none

structure State where
  table : LockTable
  order : List Nat

def enter (s : State) (now index : Nat) (w : Waiter) : Phase × State :=
  let order := s.order ++ [index]
  if w.hold = 0 then (.finished (some now), ⟨s.table.release w.name, order⟩)
  else (.holding now (now + w.hold), ⟨s.table, order⟩)

def proceed (s : State) (now index : Nat) (w : Waiter) : Attempt × LockTable → Phase × State
  | (.granted, table) => enter { s with table } now index w
  | (.refused, table) => (.finished none, { s with table })
  | (.waiting deadline, table) => (.waiting deadline, { s with table })

/-- Numbers of waiters are told apart from those of guards that were taken before the race. -/
def visit (first : Nat) (s : State) (now index : Nat) (w : Waiter) : Phase → Phase × State
  | .outside => proceed s now index w (s.table.enter w.name (first + index) now w.timeout)
  | .waiting deadline => proceed s now index w (s.table.await w.name (first + index) now deadline)
  | .holding since leaveAt =>
    if leaveAt ≤ now then (.finished (some since), { s with table := s.table.release w.name })
    else (.holding since leaveAt, s)
  | .finished since => (.finished since, s)

def due (first : Nat) (s : State) (now index : Nat) (w : Waiter) : Phase → Option Nat
  | .outside => some now
  | .waiting deadline =>
    if s.table.Holds w.name (first + index) then some now else some deadline
  | .holding _ leaveAt => some leaveAt
  | .finished _ => none

def discipline (first : Nat) : Discipline State (Waiter × Phase) where
  due s now index a := due first s now index a.1 a.2
  visit s now index a :=
    let (phase, s) := visit first s now index a.1 a.2
    ((a.1, phase), s)

/-- Runs the race to its end. Every waiter enters the line, may get the lock, and leaves. -/
def run (room : GuardRoom) (waiters : List Waiter) : List Phase × List Nat :=
  let (agents, s) := (discipline room.nextGuard).run (3 * waiters.length) 0
    (waiters.map fun w => (w, .outside)) ⟨room.table, []⟩
  (agents.map (·.2), s.order)

end Race

end MatrixSession
