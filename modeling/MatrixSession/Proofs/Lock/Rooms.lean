import MatrixSession.Proofs.Lock.Exclusion

/-!
Guards kept under labels. What happens in a room of guards, one attempt after the other, is a path of a
hall; so an attempt gets its lock just if no guard of that lock is kept.
-/
namespace MatrixSession

namespace LockTable

variable {t : LockTable} {name : String} {who : Nat}

theorem enter_granted (got : (t.tryAcquire name who).1 = true) (now timeout : Nat) :
    t.enter name who now timeout = (.granted, (t.tryAcquire name who).2) := by
  unfold tryAcquire at got ⊢
  unfold enter
  dsimp only at got ⊢
  split at got
  · next holds => rw [if_pos holds, if_pos holds]
  · contradiction

theorem enter_refused (lost : (t.tryAcquire name who).1 = false) (now : Nat) :
    t.enter name who now 0 = (.refused, (t.tryAcquire name who).2) := by
  unfold tryAcquire at lost ⊢
  unfold enter
  dsimp only at lost ⊢
  split at lost
  · contradiction
  · next unheld => rw [if_neg unheld, if_neg unheld, if_pos rfl]

theorem enter_in_vain (lost : (t.tryAcquire name who).1 = false) (now : Nat) {timeout : Nat}
    (patient : timeout ≠ 0) :
    t.enter name who now timeout = (.waiting (now + timeout), t.request name who) ∧
      (t.request name who).await name who (now + timeout) (now + timeout) =
        (.refused, (t.tryAcquire name who).2) := by
  unfold tryAcquire at lost ⊢
  unfold enter await
  dsimp only at lost ⊢
  split at lost
  · contradiction
  · next unheld => 
    rw [if_neg unheld, if_neg unheld, if_neg patient, if_neg unheld, if_pos (Nat.le_refl _)]
    exact ⟨rfl, rfl⟩

end LockTable

namespace Hall

variable {h h' : Hall} {room : GuardRoom} {name label : String}

structure Hosts (h : Hall) (room : GuardRoom) : Prop where
  table : h.table = room.table
  guards : ∀ who name, h.stands who = .holding name ↔
    ∃ label, room.guards.find? label = some (name, who)
  settled : ∀ who name deadline, h.stands who ≠ .waiting name deadline
  early : ∀ label guard, room.guards.find? label = some guard → guard.2 < room.nextGuard
  single : ∀ label label' name name' who, room.guards.find? label = some (name, who) →
    room.guards.find? label' = some (name', who) → label = label'

theorem hosts_opening : opening.Hosts .empty := by
  refine ⟨rfl, fun who name => ?_, nofun, nofun, nofun⟩
  constructor
  · intro holds
    contradiction
  · rintro ⟨label, kept⟩
    contradiction

theorem Hosts.away (hosts : h.Hosts room) {who : Nat} (late : room.nextGuard ≤ who) :
    h.stands who = .away := by
  cases stands : h.stands who with
  | away => rfl
  | waiting name deadline => exact absurd stands (hosts.settled who name deadline)
  | holding name =>
    obtain ⟨label, kept⟩ := (hosts.guards who name).mp stands
    exact absurd (hosts.early label _ kept) (Nat.not_lt.mpr late)

theorem Hosts.drop (hosts : h.Hosts room) {who : Nat} (kept : room.guards.find? label = some (name, who)) :
    (⟨h.table.release name, h.now, Function.update h.stands who .away⟩ : Hall).Hosts
      { room with table := room.table.release name, guards := room.guards.erase label } := by
  have remains (l : String) (guard : String × Nat) :
      (room.guards.erase label).find? l = some guard ↔
        l ≠ label ∧ room.guards.find? l = some guard := by
    rw [Dictionary.find?_erase]
    split
    · next same => simp [same]
    · next other => simp [Ne.symm other]
  constructor
  case table => exact congrArg (·.release name) hosts.table
  case guards =>
    intro x n
    simp only [remains]
    by_cases own : x = who
    · subst own
      rw [Function.update_self]
      constructor
      · intro holds
        contradiction
      · rintro ⟨l, other, found⟩
        exact absurd (hosts.single l label n name x found kept) other
    · rw [Function.update_of_ne own, hosts.guards]
      constructor
      · rintro ⟨l, found⟩
        refine ⟨l, ?_, found⟩
        rintro rfl
        exact own (Prod.mk.inj (Option.some.inj (found.symm.trans kept))).2
      · rintro ⟨l, -, found⟩
        exact ⟨l, found⟩
  case settled =>
    intro x n d waits
    obtain ⟨-, gone⟩ | ⟨-, waits⟩ := update_cases waits
    · contradiction
    · exact hosts.settled x n d waits
  case early => exact fun l guard found => hosts.early l guard ((remains l guard).mp found).2
  case single =>
    intro l l' n n' x found found'
    exact hosts.single l l' n n' x ((remains l _).mp found).2 ((remains l' _).mp found').2

theorem Hosts.release (hosts : h.Hosts room) (label : String) :
    ∃ turns h', Path h turns h' ∧ h'.Hosts (room.release label).2 := by
  unfold GuardRoom.release
  cases kept : room.guards.find? label with
  | none => exact ⟨[], h, .nil h, hosts⟩
  | some guard =>
    have holds := (hosts.guards guard.2 guard.1).mpr ⟨label, kept⟩
    exact ⟨_, _, .cons (.drop holds) (.nil _), hosts.drop kept⟩

theorem Hosts.keep (hosts : h.Hosts room) (unkept : room.guards.find? label = none) (name : String)
    (t : LockTable) :
    (⟨t, h.now, Function.update h.stands room.nextGuard (.holding name)⟩ : Hall).Hosts
      ⟨t, room.guards.insert label (name, room.nextGuard), room.nextGuard + 1⟩ := by
  have found_iff (l : String) (guard : String × Nat) :
      (room.guards.insert label (name, room.nextGuard)).find? l = some guard ↔
        l = label ∧ guard = (name, room.nextGuard) ∨ l ≠ label ∧ room.guards.find? l = some guard := by
    rw [Dictionary.find?_insert]
    split
    · next same => simp [same, eq_comm]
    · next other => simp [Ne.symm other]
  have older {l : String} {guard : String × Nat} (found : room.guards.find? l = some guard) :
      guard.2 ≠ room.nextGuard :=
    Nat.ne_of_lt (hosts.early l guard found)
  constructor
  case table => rfl
  case guards =>
    intro x n
    simp only [found_iff]
    by_cases own : x = room.nextGuard
    · subst own
      rw [Function.update_self]
      constructor
      · rintro ⟨⟩
        exact ⟨label, .inl ⟨rfl, rfl⟩⟩
      · rintro ⟨l, ⟨-, same⟩ | ⟨-, found⟩⟩
        · rw [(Prod.mk.inj same).1]
        · exact absurd rfl (older found)
    · rw [Function.update_of_ne own, hosts.guards]
      constructor
      · rintro ⟨l, found⟩
        refine ⟨l, .inr ⟨?_, found⟩⟩
        rintro rfl
        exact nomatch unkept.symm.trans found
      · rintro ⟨l, ⟨-, same⟩ | ⟨-, found⟩⟩
        · exact absurd (Prod.mk.inj same).2 own
        · exact ⟨l, found⟩
  case settled =>
    intro x n d waits
    obtain ⟨-, held⟩ | ⟨-, waits⟩ := update_cases waits
    · contradiction
    · exact hosts.settled x n d waits
  case early =>
    intro l guard found
    obtain ⟨-, rfl⟩ | ⟨-, found⟩ := (found_iff l guard).mp found
    · exact Nat.lt_succ_self _
    · exact Nat.lt_succ_of_lt (hosts.early l guard found)
  case single =>
    intro l l' n n' x found found'
    obtain ⟨is_label, same⟩ | ⟨-, kept⟩ := (found_iff l _).mp found <;>
      obtain ⟨is_label', same'⟩ | ⟨-, kept'⟩ := (found_iff l' _).mp found'
    · exact is_label.trans is_label'.symm
    · exact absurd (Prod.mk.inj same).2 (older kept')
    · exact absurd (Prod.mk.inj same').2 (older kept)
    · exact hosts.single l l' n n' x kept kept'

theorem path_in_vain {who : Nat} (settled : ∀ who name deadline, h.stands who ≠ .waiting name deadline)
    (away : h.stands who = .away) (lost : (h.table.tryAcquire name who).1 = false) (timeout : Nat) :
    ∃ turns now, Path h turns ⟨(h.table.tryAcquire name who).2, now, h.stands⟩ := by
  have asks : Step h (.enter who name timeout) _ := .enter name timeout away
  by_cases impatient : timeout = 0
  · subst impatient
    rw [LockTable.enter_refused lost, proceed, ← away, Function.update_eq_self] at asks
    exact ⟨_, _, .cons asks (.nil _)⟩
  · obtain ⟨waits, refused⟩ := LockTable.enter_in_vain lost h.now impatient
    rw [waits, proceed] at asks
    have punctual (x : Nat) (n : String) (d : Nat)
        (stood : Function.update h.stands who (.waiting name (h.now + timeout)) x = .waiting n d) :
        h.now + timeout ≤ d := by
      obtain ⟨-, same⟩ | ⟨-, stood⟩ := update_cases stood
      · exact Nat.le_of_eq (Standing.waiting.inj same).2
      · exact absurd stood (settled x n d)
    have gives_up : Step ⟨h.table.request name who, h.now + timeout,
        Function.update h.stands who (.waiting name (h.now + timeout))⟩ (.await who) _ :=
      .await (Function.update_self ..)
    rw [refused, proceed, Function.update_idem, ← away, Function.update_eq_self] at gives_up
    exact ⟨_, _, .cons asks (.cons (.pass timeout punctual) (.cons gives_up (.nil _)))⟩

theorem Hosts.acquire (hosts : h.Hosts room) (name label : String) (timeout : Nat) :
    ∃ turns h', Path h turns h' ∧ h'.Hosts (room.acquire name label).2 := by
  unfold GuardRoom.acquire
  rw [← hosts.table]
  cases got : (h.table.tryAcquire name room.nextGuard).1 with
  | true =>
    have taken : Step h (.enter room.nextGuard name timeout) _ := .enter name timeout (hosts.away (Nat.le_refl _))
    rw [LockTable.enter_granted got, proceed] at taken
    simp only [got, if_true]
    unfold GuardRoom.release
    dsimp only
    cases kept : room.guards.find? label with
    | none => exact ⟨_, _, .cons taken (.nil _), hosts.keep kept name _⟩
    | some guard =>
      have other : guard.2 ≠ room.nextGuard := Nat.ne_of_lt (hosts.early label guard kept)
      have holds := (hosts.guards guard.2 guard.1).mpr ⟨label, kept⟩
      rw [← Function.update_of_ne other (.holding name) h.stands] at holds
      refine ⟨_, _, .cons taken (.cons (.drop holds) (.nil _)), ?_⟩
      rw [Function.update_comm other.symm]
      have unkept : (room.guards.erase label).find? label = none := by
        rw [Dictionary.find?_erase, if_pos rfl]
      exact (hosts.drop kept).keep unkept name _
  | false =>
    obtain ⟨turns, now, path⟩ := path_in_vain hosts.settled (hosts.away (Nat.le_refl _)) got timeout
    simp only [got, Bool.false_eq_true, if_false]
    exact ⟨turns, _, path, rfl, hosts.guards, hosts.settled, hosts.early, hosts.single⟩

end Hall

namespace GuardRoom

inductive Act where
  | acquire (name label : String) (timeout : Nat)
  | release (label : String)

def after (room : GuardRoom) : List Act → GuardRoom
  | [] => room
  | .acquire name label _ :: acts => (room.acquire name label).2.after acts
  | .release label :: acts => (room.release label).2.after acts

/-- Whatever is done in a room is a path of a hall. -/
theorem path_of_acts (acts : List Act) {h : Hall} {room : GuardRoom} (hosts : h.Hosts room) :
    ∃ turns h', Hall.Path h turns h' ∧ h'.Hosts (room.after acts) := by
  induction acts generalizing h room with
  | nil => exact ⟨[], h, .nil h, hosts⟩
  | cons act acts ih =>
    have first : ∃ turns h', Hall.Path h turns h' ∧ h'.Hosts (room.after [act]) := by
      cases act with
      | acquire name label timeout => exact hosts.acquire name label timeout
      | release label => exact hosts.release label
    obtain ⟨turns, middle, path, hosts'⟩ := first
    obtain ⟨turns', h', path', hosts''⟩ := ih hosts'
    refine ⟨turns ++ turns', h', Hall.path_append path path', ?_⟩
    cases act <;> exact hosts''

def keeper (room : GuardRoom) (name : String) : Option Nat := (room.table.get name).holder

/-- Between two acts nobody waits in a room, and a lock is held just if a guard of it is kept. -/
structure Settled (room : GuardRoom) : Prop where
  orderly : ∀ name, (room.table.get name).Orderly
  unlined : ∀ name, (room.table.get name).line = []
  early : ∀ name who, room.keeper name = some who → who < room.nextGuard
  free_iff : ∀ name, room.keeper name = none ↔
    ∀ label who, room.guards.find? label ≠ some (name, who)

theorem settled_of_acts (acts : List Act) : (empty.after acts).Settled := by
  obtain ⟨turns, h, path, hosts⟩ := path_of_acts acts Hall.hosts_opening
  have sound := Hall.sound_path Hall.sound_opening path
  generalize empty.after acts = room at hosts
  have kept {name : String} {who : Nat} (held : (h.table.get name).holder = some who) :
      ∃ label, room.guards.find? label = some (name, who) := by
    rcases sound.stands_of_holder held with holds | ⟨deadline, waits⟩
    · exact (hosts.guards who name).mp holds
    · exact absurd waits (hosts.settled who name deadline)
  constructor
  case orderly => exact fun name => hosts.table ▸ sound.orderly name
  case unlined =>
    intro name
    rw [← hosts.table]
    cases held : (h.table.get name).holder with
    | none => exact (sound.orderly name).served held
    | some who =>
      rw [List.eq_nil_iff_forall_not_mem]
      intro x behind
      obtain ⟨deadline, waits⟩ := Hall.line_of_holder sound held behind
      exact hosts.settled x name deadline waits
  case early =>
    intro name who held
    rw [keeper, ← hosts.table] at held
    obtain ⟨label, found⟩ := kept held
    exact hosts.early label _ found
  case free_iff =>
    intro name
    rw [keeper, ← hosts.table]
    constructor
    · intro free label who found
      have held := sound.served name who ((hosts.guards who name).mpr ⟨label, found⟩)
      rw [free] at held
      contradiction
    · intro unkept
      cases held : (h.table.get name).holder with
      | none => rfl
      | some who =>
        obtain ⟨label, found⟩ := kept held
        exact absurd found (unkept label who)

variable (acts : List Act)

theorem single_guard {name label label' : String} {who who' : Nat}
    (kept : (empty.after acts).guards.find? label = some (name, who))
    (kept' : (empty.after acts).guards.find? label' = some (name, who')) : label = label' := by
  obtain ⟨turns, h, path, hosts⟩ := path_of_acts acts Hall.hosts_opening
  have holds := (hosts.guards who name).mpr ⟨label, kept⟩
  have holds' := (hosts.guards who' name).mpr ⟨label', kept'⟩
  obtain rfl := (Hall.sound_path Hall.sound_opening path).exclusive holds holds'
  exact hosts.single label label' name name who kept kept'

theorem acquire_iff (name label : String) :
    ((empty.after acts).acquire name label).1 = true ↔
      ∀ other who, (empty.after acts).guards.find? other ≠ some (name, who) := by
  have settled := settled_of_acts acts
  generalize empty.after acts = room at settled
  have got : (room.acquire name label).1 = true ↔
      (room.table.request name room.nextGuard).Holds name room.nextGuard := by
    unfold acquire LockTable.tryAcquire
    by_cases holds : (room.table.request name room.nextGuard).Holds name room.nextGuard <;>
      simp [holds]
  obtain ⟨granted, waits⟩ := Hall.holds_request room.table name room.nextGuard
  rw [got, ← settled.free_iff]
  cases held : room.keeper name with
  | none => exact ⟨fun _ => rfl, fun _ => granted held⟩
  | some who =>
    have other : who ≠ room.nextGuard := Nat.ne_of_lt (settled.early name who held)
    constructor
    · intro holds
      exact absurd holds (waits who held other)
    · intro free
      contradiction

end GuardRoom

end MatrixSession
