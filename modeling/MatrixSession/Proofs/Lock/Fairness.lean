import MatrixSession.Proofs.Lock.Rooms
import MatrixSession.Proofs.Lock.Rounds

/-!
Races for locks are fair. Each waiter gets its lock after all those who came before it, unless its time
is up by then or an older guard holds the lock, and nothing about another lock makes a difference.
-/
namespace MatrixSession.Race

def results (room : GuardRoom) (waiters : List Waiter) : List Entry :=
  waiters.zip ((run room waiters).1.map Phase.since?)

variable {room : GuardRoom}

theorem lined_opening (settled : room.Settled) (entries : List Entry) :
    Lined room.keeper room.nextGuard (standing none entries) room.table := by
  refine ⟨settled.orderly, ?_⟩
  intro name
  rw [Lock.queue, settled.unlined, lineup_outside]
  rfl

theorem race_planned (settled : room.Settled) (waiters : List Waiter) :
    (run room waiters).1 = (plan room.keeper waiters).map (fun e => .finished e.2) ∧
      (run room waiters).2.Pairwise (Sooner (plan room.keeper waiters)) ∧
      ∀ i, i ∈ (run room waiters).2 ↔ ∃ w t, (plan room.keeper waiters)[i]? = some (w, some t) := by
  have outside : standing none (plan room.keeper waiters) = waiters.map fun w => (w, .outside) := by
    rw [← map_plan room.keeper waiters, List.map_map, map_plan]
    rfl
  have enough : ((plan room.keeper waiters).map fun e => (phaseAt none e).ahead).sum ≤
      3 * waiters.length := by
    have length := congrArg List.length (map_plan room.keeper waiters)
    rw [List.length_map] at length
    simp [phaseAt, Phase.ahead, length, Nat.mul_comm]
  obtain ⟨clock, s, ran, recorded, finished⟩ := run_planned settled.early waiters (3 * waiters.length)
    none ⟨room.table, []⟩ (lined_opening settled _) (recorded_opening _) enough
  rw [outside] at ran
  unfold run
  rw [Option.getD_none] at ran
  rw [ran]
  refine ⟨?_, recorded.sorted, ?_⟩
  · dsimp only
    rw [standing, List.map_map]
    apply List.map_congr_left
    intro e mem
    obtain ⟨start, phase⟩ := finished e mem
    rw [Function.comp_apply, phase, (of_finished phase).1]
  · intro i
    rw [recorded.mem_iff]
    constructor
    · rintro ⟨w, t, past, found, -⟩
      exact ⟨w, t, found⟩
    · rintro ⟨w, t, found⟩
      obtain ⟨start, phase⟩ := finished _ (List.mem_of_getElem? found)
      obtain ⟨past, set, come⟩ := (of_finished phase).2 t rfl
      exact ⟨w, t, past, found, set, come⟩

theorem results_planned (settled : room.Settled) (waiters : List Waiter) :
    results room waiters = plan room.keeper waiters := by
  rw [results, (race_planned settled waiters).1, List.map_map]
  exact (List.zip_of_prod (map_plan room.keeper waiters) rfl).symm

/-- What a race comes to, for each waiter and for all together. -/
structure Fair (room : GuardRoom) (waiters : List Waiter) : Prop where
  /-- Everybody is through in the end. -/
  ended : (run room waiters).1.length = waiters.length ∧
    ∀ phase ∈ (run room waiters).1, ∃ start, phase = .finished start
  /-- Those who get one lock hold it one after the other, in list order. -/
  apart : ∀ earlier w u later, results room waiters = earlier ++ (w, some u) :: later →
    ∀ v t, (v, some t) ∈ earlier → v.name = w.name → t + v.hold ≤ u
  /-- Unless its time ends just when a lock is given back, a waiter gets its lock if no older guard
      holds it, and it is the first who gets it or has time for all those who get it before. -/
  served : ∀ earlier w start later, results room waiters = earlier ++ (w, start) :: later →
    (∀ v t, (v, some t) ∈ earlier → v.name = w.name → t + v.hold ≠ w.timeout) →
      (start.isSome ↔ (∀ label who, room.guards.find? label ≠ some (w.name, who)) ∧
        ((∀ v t, (v, some t) ∈ earlier → v.name ≠ w.name) ∨ spent w.name earlier < w.timeout))
  /-- It gets the lock as soon as they are through with it. -/
  prompt : ∀ earlier w u later, results room waiters = earlier ++ (w, some u) :: later →
    u = spent w.name earlier
  /-- What becomes of a waiter depends on nobody but those in front who ask for the same lock. -/
  alone : ∀ front w back front' back', waiters = front ++ w :: back →
    front'.filter (·.name = w.name) = front.filter (·.name = w.name) →
      ∃ start, (results room waiters)[front.length]? = some (w, start) ∧
        (results room (front' ++ w :: back'))[front'.length]? = some (w, start)
  /-- The order of acquiring is that of the moments, and for one moment that of the list. -/
  ordered : (run room waiters).2.Pairwise (Sooner (results room waiters)) ∧
    ∀ i, i ∈ (run room waiters).2 ↔ ∃ w t, (results room waiters)[i]? = some (w, some t)

/-- Races for locks are fair, whoever runs them and whichever guards were taken before. -/
theorem races_are_fair (acts : List GuardRoom.Act) (waiters : List Waiter) :
    Fair (GuardRoom.empty.after acts) waiters := by
  have settled := GuardRoom.settled_of_acts acts
  generalize GuardRoom.empty.after acts = room at settled
  obtain ⟨phases, sorted, listed⟩ := race_planned settled waiters
  have planned := results_planned settled
  constructor
  case ended =>
    have length := congrArg List.length (map_plan room.keeper waiters)
    rw [List.length_map] at length
    rw [phases, List.length_map]
    refine ⟨length, ?_⟩
    intro phase mem
    obtain ⟨e, -, rfl⟩ := List.mem_map.mp mem
    exact ⟨e.2, rfl⟩
  case apart =>
    intro earlier w u later split v t mem same
    rw [planned] at split
    obtain ⟨before, turn⟩ := plan_split split
    dsimp only at turn
    obtain ⟨-, -, rfl⟩ := turn_eq_some.mp turn.symm
    rw [before] at mem ⊢
    exact leaves_of_mem mem same rfl
  case served =>
    intro earlier w start later split untied
    rw [planned] at split
    obtain ⟨before, turn⟩ := plan_split split
    rw [← in_time_iff before untied, ← settled.free_iff]
    dsimp only at turn
    rw [turn, Option.isSome_iff_exists]
    constructor
    · rintro ⟨t, served⟩
      obtain ⟨free, soon, rfl⟩ := turn_eq_some.mp served
      exact ⟨free, soon⟩
    · rintro ⟨free, soon⟩
      exact ⟨_, turn_eq_some.mpr ⟨free, soon, rfl⟩⟩
  case prompt =>
    intro earlier w u later split
    rw [planned] at split
    obtain ⟨-, turn⟩ := plan_split split
    exact (turn_eq_some.mp turn.symm).2.2
  case alone =>
    rintro front w back front' back' rfl same
    refine ⟨turn? room.keeper (plan room.keeper front) w, ?_, ?_⟩
    · rw [planned, getElem?_plan]
    · rw [planned, getElem?_plan]
      unfold turn?
      rw [spent_filter w.name _ front', spent_filter w.name _ front, same]
  case ordered =>
    rw [planned]
    exact ⟨sorted, listed⟩

/-- The door is held throughout. At the gate the second of three gives up, and is not waited for. -/
theorem crowded_race_is_fair : ∃ room waiters, room = GuardRoom.empty.after [.acquire "door" "old" 0] ∧
    waiters = [⟨"door", 9, 1⟩, ⟨"gate", 0, 4⟩, ⟨"gate", 3, 2⟩, ⟨"gate", 7, 1⟩] ∧
    results room waiters = [(⟨"door", 9, 1⟩, none), (⟨"gate", 0, 4⟩, some 0), (⟨"gate", 3, 2⟩, none),
      (⟨"gate", 7, 1⟩, some 4)] ∧
    (∀ e ∈ results room waiters, ∀ t ∈ e.2, ∀ w ∈ waiters, t + e.1.hold ≠ w.timeout) ∧
    Fair room waiters :=
  ⟨_, _, rfl, rfl, by decide, by decide, races_are_fair _ _⟩

end MatrixSession.Race
