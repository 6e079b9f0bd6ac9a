import MatrixSession.Proofs.Lock.Rooms
import MatrixSession.Race

/-!
Races for locks. Whatever happens in a race is a path of a hall, each visit of a waiter being at most
two turns of it.
-/
namespace MatrixSession

namespace Race

def Phase.standing (name : String) : Phase → Standing
  | outside | finished _ => .away
  | waiting deadline => .waiting name deadline
  | holding .. => .holding name

variable {first now index : Nat} {s : State} {w : Waiter} {h : Hall}

/-- One waiter has moved from `h` to `h'` and stands in a new phase; all others are where they were. -/
structure Moved (who : Nat) (name : String) (result : Phase × State) (h h' : Hall) : Prop where
  table : h'.table = result.2.table
  now : h'.now = h.now
  stands : h'.stands = Function.update h.stands who (result.1.standing name)

theorem path_of_proceed (who : Nat) (looked : Attempt × LockTable) {turn : Hall.Turn}
    (step : Hall.Step h turn (h.proceed who w.name looked)) :
    ∃ turns h', Hall.Path h turns h' ∧ Moved who w.name (proceed s now index w looked) h h' := by
  obtain ⟨attempt, table⟩ := looked
  cases attempt with
  | waiting | refused => exact ⟨_, _, .cons step (.nil _), rfl, rfl, rfl⟩
  | granted =>
    unfold proceed enter
    dsimp only
    split
    · have dropped : Hall.Step (h.proceed who w.name (.granted, table)) (.drop who w.name) _ :=
        .drop (Function.update_self ..)
      refine ⟨_, _, .cons step (.cons dropped (.nil _)), rfl, rfl, ?_⟩
      exact Function.update_idem ..
    · exact ⟨_, _, .cons step (.nil _), rfl, rfl, rfl⟩

theorem path_of_visit (table : h.table = s.table) {phase : Phase}
    (stands : h.stands (first + index) = phase.standing w.name) :
    ∃ turns h', Hall.Path h turns h' ∧
      Moved (first + index) w.name (visit first s h.now index w phase) h h' := by
  cases phase with
  | outside =>
    have asks : Hall.Step h (.enter (first + index) w.name w.timeout) _ :=
      .enter w.name w.timeout stands
    rw [table] at asks
    exact path_of_proceed _ _ asks
  | waiting deadline =>
    have looks : Hall.Step h (.await (first + index)) _ := .await stands
    rw [table] at looks
    exact path_of_proceed _ _ looks
  | holding since leaveAt =>
    unfold visit
    dsimp only
    split
    · have dropped : Hall.Step h (.drop (first + index) w.name) _ := .drop stands
      exact ⟨_, _, .cons dropped (.nil _), congrArg (·.release w.name) table, rfl, rfl⟩
    · refine ⟨[], h, .nil h, table, rfl, ?_⟩
      rw [← stands, Function.update_eq_self]
  | finished since =>
    refine ⟨[], h, .nil h, table, rfl, ?_⟩
    exact (Function.update_eq_self_iff.mpr stands.symm).symm

def Stand (first index : Nat) (agents : List (Waiter × Phase)) (h : Hall) : Prop :=
  ∀ i w phase, agents[i]? = some (w, phase) →
    h.stands (first + (index + i)) = phase.standing w.name

theorem path_of_pass (agents : List (Waiter × Phase)) (index : Nat) {s : State} {h : Hall}
    (table : h.table = s.table) (stand : Stand first index agents h) :
    ∃ turns h', Hall.Path h turns h' ∧
      h'.table = ((discipline first).pass h.now index agents s).2.table ∧ h'.now = h.now ∧
      Stand first index ((discipline first).pass h.now index agents s).1 h' ∧
      ((discipline first).pass h.now index agents s).1.map (·.1) = agents.map (·.1) ∧
      ∀ x, x < first + index ∨ first + (index + agents.length) ≤ x → h'.stands x = h.stands x := by
  induction agents generalizing index s h with
  | nil => exact ⟨[], h, .nil h, table, rfl, nofun, rfl, fun _ _ => rfl⟩
  | cons agent agents ih =>
    obtain ⟨w, phase⟩ := agent
    obtain ⟨turns, middle, path, moved⟩ := path_of_visit table (stand 0 w phase rfl)
    have others : Stand first (index + 1) agents middle := by
      intro i w' phase' found
      have before := stand (i + 1) w' phase' found
      rw [moved.stands, Function.update_of_ne (by omega)]
      rwa [Nat.add_assoc index 1 i, Nat.add_comm 1 i]
    obtain ⟨turns', h', path', table', now', stand', names, outside⟩ :=
      ih (index + 1) moved.table others
    rw [moved.now] at table' now' stand' names
    refine ⟨turns ++ turns', h', Hall.path_append path path', table', now', ?_, ?_, ?_⟩
    · intro i w' phase' found
      cases i with
      | zero =>
        obtain ⟨rfl, rfl⟩ := Prod.mk.inj (Option.some.inj found)
        rw [outside _ (.inl (by omega)), moved.stands]
        exact Function.update_self ..
      | succ i =>
        have after := stand' i w' phase' found
        rwa [Nat.add_assoc index 1 i, Nat.add_comm 1 i] at after
    · exact congrArg (w :: ·) names
    · intro x away
      rw [List.length_cons] at away
      rw [outside x (by omega), moved.stands, Function.update_of_ne (by omega)]

/-- Those of the race stand in the hall as the race has them, and nobody else waits. -/
structure Along (first : Nat) (agents : List (Waiter × Phase)) (s : State) (h : Hall) : Prop where
  table : h.table = s.table
  stand : Stand first 0 agents h
  settled : ∀ x, x < first ∨ first + agents.length ≤ x →
    ∀ name deadline, h.stands x ≠ .waiting name deadline

theorem punctual_of_moment {agents : List (Waiter × Phase)} (sound : h.Sound)
    (along : Along first agents s h) {moment : Nat}
    (next : (discipline first).nextMoment? s h.now agents = some moment) (who : Nat) (name : String)
    (deadline : Nat) (waits : h.stands who = .waiting name deadline) :
    max h.now moment ≤ deadline := by
  have early := sound.punctual who name deadline waits
  refine Nat.max_le.mpr ⟨early, ?_⟩
  have inside : first ≤ who ∧ who < first + agents.length := by
    refine Decidable.byContradiction fun outside => ?_
    exact along.settled who (by omega) name deadline waits
  obtain ⟨i, rfl⟩ := Nat.exists_eq_add_of_le inside.1
  have bound : i < agents.length := by omega
  have found : agents[i]? = some agents[i] := List.getElem?_eq_getElem bound
  have stands := along.stand i agents[i].1 agents[i].2 found
  rw [Nat.zero_add, waits] at stands
  have phase : agents[i].2 = .waiting deadline := by
    cases phase : agents[i].2 with
    | waiting d =>
      rw [phase] at stands
      rw [(Standing.waiting.inj stands).2]
    | _ =>
      rw [phase] at stands
      contradiction
  obtain ⟨time, ready, soon⟩ :
      ∃ time, (discipline first).due s h.now i agents[i] = some time ∧ time ≤ deadline := by
    change ∃ time, due first s h.now i agents[i].1 agents[i].2 = some time ∧ time ≤ deadline
    rw [phase, due]
    split
    · exact ⟨_, rfl, early⟩
    · exact ⟨_, rfl, Nat.le_refl _⟩
  have placed : (agents[i], i) ∈ agents.zipIdx := List.mk_mem_zipIdx_iff_getElem?.mpr found
  have least := (List.min?_eq_some_iff.mp next).2 time (List.mem_filterMap.mpr ⟨_, placed, ready⟩)
  exact Nat.le_trans least soon

theorem path_of_run (fuel : Nat) {agents : List (Waiter × Phase)} {s : State} {h : Hall}
    (sound : h.Sound) (along : Along first agents s h) :
    ∃ turns h', Hall.Path h turns h' ∧
      Along first ((discipline first).run fuel h.now agents s).1
        ((discipline first).run fuel h.now agents s).2 h' ∧
      ((discipline first).run fuel h.now agents s).1.map (·.1) = agents.map (·.1) := by
  induction fuel generalizing agents s h with
  | zero => exact ⟨[], h, .nil h, along, rfl⟩
  | succ fuel ih =>
    unfold Discipline.run
    cases next : (discipline first).nextMoment? s h.now agents with
    | none => exact ⟨[], h, .nil h, along, rfl⟩
    | some moment =>
      have later : h.now + (max h.now moment - h.now) = max h.now moment := by omega
      have waited : Hall.Step h (.pass (max h.now moment - h.now)) _ := .pass _ (by
        rw [later]
        exact punctual_of_moment sound along next)
      rw [later] at waited
      obtain ⟨turns, middle, path, table, now, stand, names, outside⟩ :=
        path_of_pass agents 0 along.table (h := { h with now := max h.now moment }) along.stand
      have along' : Along first ((discipline first).pass (max h.now moment) 0 agents s).1
          ((discipline first).pass (max h.now moment) 0 agents s).2 middle := by
        refine ⟨table, stand, fun x away name deadline waits => ?_⟩
        have size := congrArg List.length names
        rw [List.length_map, List.length_map] at size
        dsimp only at size
        rw [size] at away
        rw [outside x (by omega)] at waits
        exact along.settled x away name deadline waits
      have sound' := Hall.sound_path (Hall.sound_step sound waited) path
      obtain ⟨turns', h', path', along'', names'⟩ := ih sound' along'
      rw [now] at along'' names'
      exact ⟨_ :: (turns ++ turns'), h', .cons waited (Hall.path_append path path'), along'',
        names'.trans names⟩

/-- A race in a room of guards is a path of a hall that has these guards. -/
theorem path_of_race (acts : List GuardRoom.Act) (waiters : List Waiter) :
    ∃ h turns h', h.Hosts (GuardRoom.empty.after acts) ∧ h.Sound ∧ Hall.Path h turns h' ∧
      ∀ i w phase, waiters[i]? = some w →
        (run (GuardRoom.empty.after acts) waiters).1[i]? = some phase →
          h'.stands ((GuardRoom.empty.after acts).nextGuard + i) = phase.standing w.name := by
  obtain ⟨turns, g, path, hosts⟩ := GuardRoom.path_of_acts acts Hall.hosts_opening
  have sound := Hall.sound_path Hall.sound_opening path
  generalize GuardRoom.empty.after acts = room at hosts
  -- The clock of a race starts anew. Nobody waits before the race, so no deadline depends on it.
  have sound' : (⟨g.table, 0, g.stands⟩ : Hall).Sound :=
    ⟨sound.orderly, sound.queued, sound.served,
      fun who name deadline waits => absurd waits (hosts.settled who name deadline)⟩
  have along : Along room.nextGuard (waiters.map fun w => (w, .outside)) ⟨room.table, []⟩
      ⟨g.table, 0, g.stands⟩ := by
    refine ⟨hosts.table, fun i w phase found => ?_, fun x _ => hosts.settled x⟩
    rw [List.getElem?_map, Option.map_eq_some_iff] at found
    obtain ⟨w', -, same⟩ := found
    obtain ⟨rfl, rfl⟩ := Prod.mk.inj same
    exact hosts.away (Nat.le_add_right _ _)
  have hosts' : (⟨g.table, 0, g.stands⟩ : Hall).Hosts room :=
    ⟨hosts.table, hosts.guards, hosts.settled, hosts.early, hosts.single⟩
  obtain ⟨turns', h', path', along', names⟩ := path_of_run (3 * waiters.length) sound' along
  refine ⟨_, turns', h', hosts', sound', path', fun i w phase entrant found => ?_⟩
  unfold run at found
  rw [List.getElem?_map, Option.map_eq_some_iff] at found
  obtain ⟨⟨w', phase'⟩, listed, rfl⟩ := found
  have named := congrArg (·[i]?) names
  simp only [List.getElem?_map, List.map_map, entrant, Option.map_some, Function.comp_def] at named
  rw [listed] at named
  obtain rfl : w' = w := Option.some.inj named
  have stands := along'.stand i w' phase' listed
  rwa [Nat.zero_add] at stands

end Race

end MatrixSession
