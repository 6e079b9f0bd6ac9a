/-!
Running agents that share a state on one thread with a virtual clock. The agents are visited in
list order, again and again; each visit takes an agent as far as it gets. When no agent can move,
the clock goes on to the next moment at which one can.
-/
namespace MatrixSession

/-- How agents of type `α` move on a shared state `σ`. An agent is told the time and its index. -/
structure Discipline (σ α : Type) where
  /-- The moment from which on the agent can move, if it is known. -/
  due : σ → Nat → Nat → α → Option Nat
  /-- Takes the agent as far as it gets. -/
  visit : σ → Nat → Nat → α → α × σ

namespace Discipline

variable {σ α : Type}

def pass (d : Discipline σ α) (now : Nat) : Nat → List α → σ → List α × σ
  | _, [], s => ([], s)
  | index, a :: rest, s =>
    let (a, s) := d.visit s now index a
    let (rest, s) := d.pass now (index + 1) rest s
    (a :: rest, s)

def nextMoment? (d : Discipline σ α) (s : σ) (now : Nat) (agents : List α) : Option Nat :=
  (agents.zipIdx.filterMap fun (a, index) => d.due s now index a).min?

def run (d : Discipline σ α) : Nat → Nat → List α → σ → List α × σ
  | 0, _, agents, s => (agents, s)
  | fuel + 1, now, agents, s =>
    match d.nextMoment? s now agents with
    | none => (agents, s)
    | some moment =>
      let now := max now moment
      let (agents, s) := d.pass now 0 agents s
      d.run fuel now agents s

end Discipline

end MatrixSession
