import MatrixSession.Dictionary

/-!
Named locks. Each lock has at most one holder and serves those who wait for it in the order in
which they came; one who gives up leaves the line.
-/
namespace MatrixSession

structure Lock where
  holder : Option Nat
  line : List Nat
  deriving DecidableEq, Repr

namespace Lock

def free : Lock := ⟨none, []⟩

def request (l : Lock) (who : Nat) : Lock :=
  if l.holder.isNone then { l with holder := some who } else { l with line := l.line ++ [who] }

def release (l : Lock) : Lock := ⟨l.line.head?, l.line.tail⟩

def withdraw (l : Lock) (who : Nat) : Lock := { l with line := l.line.filter (· ≠ who) }

end Lock

inductive Attempt where
  | waiting (deadline : Nat)
  | granted
  | refused
  deriving DecidableEq, Repr

structure LockTable where
  locks : Dictionary Lock

namespace LockTable

def empty : LockTable := ⟨.empty⟩

def get (t : LockTable) (name : String) : Lock := (t.locks.find? name).getD .free

def update (t : LockTable) (name : String) (change : Lock → Lock) : LockTable :=
  ⟨t.locks.insert name (change (t.get name))⟩

def request (t : LockTable) (name : String) (who : Nat) : LockTable :=
  t.update name (·.request who)

def release (t : LockTable) (name : String) : LockTable := t.update name Lock.release

def withdraw (t : LockTable) (name : String) (who : Nat) : LockTable :=
  t.update name (·.withdraw who)

def Holds (t : LockTable) (name : String) (who : Nat) : Prop := (t.get name).holder = some who

instance (t : LockTable) (name : String) (who : Nat) : Decidable (t.Holds name who) :=
  inferInstanceAs (Decidable ((t.get name).holder = some who))

theorem get_update (t : LockTable) (name other : String) (change : Lock → Lock) :
    (t.update name change).get other =
      if name = other then change (t.get other) else t.get other := by
  unfold get update
  rw [Dictionary.find?_insert]
  split
  · next h => subst h; rfl
  · rfl

/-- Asks for a lock. Without any time to wait, a lock that is held is given up at once. -/
def enter (t : LockTable) (name : String) (who now timeout : Nat) : Attempt × LockTable :=
  let asked := t.request name who
  if asked.Holds name who then (.granted, asked)
  else if timeout = 0 then (.refused, asked.withdraw name who)
  else (.waiting (now + timeout), asked)

def await (t : LockTable) (name : String) (who now deadline : Nat) : Attempt × LockTable :=
  if t.Holds name who then (.granted, t)
  else if deadline ≤ now then (.refused, t.withdraw name who)
  else (.waiting deadline, t)

/-- Tries to take a lock while nobody else can give it back: a held one is waited for in vain. -/
def tryAcquire (t : LockTable) (name : String) (who : Nat) : Bool × LockTable :=
  let asked := t.request name who
  if asked.Holds name who then (true, asked) else (false, asked.withdraw name who)

end LockTable

structure GuardRoom where
  table : LockTable
  guards : Dictionary (String × Nat)
  nextGuard : Nat

namespace GuardRoom

def empty : GuardRoom := ⟨.empty, .empty, 0⟩

def release (r : GuardRoom) (label : String) : Bool × GuardRoom :=
  match r.guards.find? label with
  | none => (false, r)
  | some (name, _) =>
    (true, { r with table := r.table.release name, guards := r.guards.erase label })

/-- Acquires a lock and keeps its guard under a label. An older guard under that label is dropped
    after the new one was taken. -/
def acquire (r : GuardRoom) (name label : String) : Bool × GuardRoom :=
  let (got, table) := r.table.tryAcquire name r.nextGuard
  if got then
    let (_, cleared) := { r with table }.release label
    (true, { cleared with
      guards := cleared.guards.insert label (name, r.nextGuard), nextGuard := r.nextGuard + 1 })
  else (false, { r with table })

end GuardRoom

end MatrixSession
