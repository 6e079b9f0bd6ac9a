import MatrixSession.Proofs.Lock.Hall
import MatrixSession.Proofs.Lock.Plan

/-!
A race that goes by its plan. Before each lock stand, one behind the other, its older guard and those
of the race who hold it or wait for it, in list order. So a waiter finds itself at the head of its line
just when those who came before it are through with the lock.
-/
namespace MatrixSession

namespace Lock

variable {l : Lock} {who : Nat}

theorem holder_eq_head (orderly : l.Orderly) : l.holder = l.queue.head? := by
  obtain ⟨holder, line⟩ := l
  cases holder with
  | none =>
    obtain rfl : line = [] := orderly.served rfl
    rfl
  | some other => rfl

theorem queue_release_cons {rest : List Nat} (orderly : l.Orderly) (queue : l.queue = who :: rest) :
    l.release.queue = rest := by
  have held : l.holder = some who := by
    rw [holder_eq_head orderly, queue]
    rfl
  rw [Lock.queue, held] at queue
  rw [queue_release]
  exact List.cons.inj queue |>.2

theorem queue_withdraw_middle {front back : List Nat} (orderly : l.Orderly)
    (queue : l.queue = front ++ who :: back) (unheld : l.holder ≠ some who) :
    (l.withdraw who).queue = front ++ back := by
  have nodup := orderly.nodup
  rw [queue, List.nodup_middle, List.nodup_cons, List.mem_append, not_or] at nodup
  have others (xs : List Nat) (absent : who ∉ xs) : xs.filter (· ≠ who) = xs := by
    rw [List.filter_eq_self]
    intro x mem
    apply decide_eq_true
    rintro rfl
    exact absent mem
  rw [queue_withdraw unheld, queue, List.filter_append, others front nodup.1.1,
    List.filter_cons_of_neg (by simp), others back nodup.1.2]

end Lock

namespace Race

def Phase.lined : Phase → Bool
  | waiting _ | holding .. => true
  | outside | finished _ => false

def lineup (name : String) : Nat → List (Waiter × Phase) → List Nat
  | _, [] => []
  | number, (w, phase) :: rest =>
    if w.name = name ∧ phase.lined then number :: lineup name (number + 1) rest
    else lineup name (number + 1) rest

def ending (e : Entry) : Nat := e.2.getD e.1.timeout

/-- Where a waiter stands by the plan. There is no clock yet before the race. -/
def phaseAt : Option Nat → Entry → Phase
  | none, _ => .outside
  | some now, (w, none) => if now < w.timeout then .waiting w.timeout else .finished none
  | some now, (w, some t) =>
    if now < t then .waiting w.timeout
    else if t + w.hold ≤ now then .finished (some t) else .holding t (t + w.hold)

def standing (clock : Option Nat) (entries : List Entry) : List (Waiter × Phase) :=
  entries.map fun e => (e.1, phaseAt clock e)

def entrants (now index : Nat) (entries : List Entry) : List Nat :=
  ((entries.zipIdx index).filter (·.1.2 = some now)).map (·.2)

/-- The locks, with older guards and those of the race in their queues. -/
structure Lined (older : String → Option Nat) (first : Nat) (agents : List (Waiter × Phase))
    (table : LockTable) : Prop where
  orderly : ∀ name, (table.get name).Orderly
  queue : ∀ name, (table.get name).queue = (older name).toList ++ lineup name first agents

/-- Nobody comes to the end of its waiting between the clock and the moment `now`. -/
def Quiet (now : Nat) (e : Entry) : Option Nat → Prop
  | none => now = 0
  | some past => past < now ∧ (ending e ≤ past ∨ now ≤ ending e)

variable {older : String → Option Nat} {waiters : List Waiter} {w : Waiter} {name : String}
  {first now number : Nat} {clock : Option Nat} {phase phase' : Phase} {table : LockTable}
  {front back : List (Waiter × Phase)}

section Phases

variable {t : Nat}

theorem phaseAt_waiting {e : Entry} (early : now < ending e) :
    phaseAt (some now) e = .waiting e.1.timeout := by
  obtain ⟨w, start⟩ := e
  cases start <;> exact if_pos early

theorem phaseAt_refused (late : w.timeout ≤ now) : phaseAt (some now) (w, none) = .finished none := by
  rw [phaseAt, if_neg (Nat.not_lt.mpr late)]

theorem phaseAt_holding (since : t ≤ now) (still : now < t + w.hold) :
    phaseAt (some now) (w, some t) = .holding t (t + w.hold) := by
  rw [phaseAt, if_neg (Nat.not_lt.mpr since), if_neg (Nat.not_le.mpr still)]

theorem phaseAt_through (elapsed : t + w.hold ≤ now) :
    phaseAt (some now) (w, some t) = .finished (some t) := by
  have since : t ≤ now := by omega
  rw [phaseAt, if_neg (Nat.not_lt.mpr since), if_pos elapsed]

theorem phaseAt_settled {e : Entry} (settled : ending e ≤ now) :
    (∃ t, e.2 = some t ∧ now < t + e.1.hold ∧ phaseAt (some now) e = .holding t (t + e.1.hold)) ∨
      phaseAt (some now) e = .finished e.2 ∧ ∀ t, e.2 = some t → t + e.1.hold ≤ now := by
  obtain ⟨w, start⟩ := e
  cases start with
  | none => exact .inr ⟨phaseAt_refused settled, nofun⟩
  | some t =>
    by_cases elapsed : t + w.hold ≤ now
    · right
      refine ⟨phaseAt_through elapsed, ?_⟩
      intro u same
      obtain rfl := Option.some.inj same
      exact elapsed
    · exact .inl ⟨t, rfl, Nat.lt_of_not_le elapsed, phaseAt_holding settled (Nat.lt_of_not_le elapsed)⟩

theorem phaseAt_finished {e : Entry} (settled : ending e ≤ now)
    (elapsed : ∀ t, e.2 = some t → t + e.1.hold ≤ now) :
    phaseAt (some now) e = .finished e.2 := by
  rcases phaseAt_settled settled with ⟨t, served, still, -⟩ | ⟨phase, -⟩
  · have leaves := elapsed t served
    omega
  · exact phase

end Phases

section Lines

theorem lineup_append (name : String) (number : Nat) (front back : List (Waiter × Phase)) :
    lineup name number (front ++ back) =
      lineup name number front ++ lineup name (number + front.length) back := by
  induction front generalizing number with
  | nil => rfl
  | cons agent front ih =>
    rw [List.cons_append, lineup, lineup, ih, List.length_cons, Nat.add_right_comm number 1,
      Nat.add_assoc]
    split <;> rfl

theorem lineup_cons (name : String) (number : Nat) (w : Waiter) (phase : Phase) :
    lineup name number ((w, phase) :: back) =
      (if w.name = name ∧ phase.lined then [number] else []) ++ lineup name (number + 1) back := by
  rw [lineup]
  split <;> rfl

theorem lineup_eq_nil : lineup name number front = [] ↔
    ∀ a ∈ front, a.1.name = name → a.2.lined = false := by
  induction front generalizing number with
  | nil => exact ⟨fun _ => List.forall_mem_nil _, fun _ => rfl⟩
  | cons agent front ih =>
    rw [lineup, List.forall_mem_cons, ← @ih (number + 1)]
    by_cases asks : agent.1.name = name <;> by_cases inside : agent.2.lined <;> simp [asks, inside]

theorem bounds_of_lineup {who : Nat} (mem : who ∈ lineup name number front) :
    number ≤ who ∧ who < number + front.length := by
  induction front generalizing number with
  | nil => contradiction
  | cons agent front ih =>
    rw [lineup] at mem
    rw [List.length_cons]
    split at mem
    · rcases List.mem_cons.mp mem with rfl | mem
      · omega
      · have bounds := ih mem
        omega
    · have bounds := ih mem
      omega

theorem lineup_outside (name : String) (number : Nat) (entries : List Entry) :
    lineup name number (standing none entries) = [] := by
  rw [lineup_eq_nil]
  intro a mem asks
  obtain ⟨e, -, rfl⟩ := List.mem_map.mp mem
  rfl

theorem Lined.move (lined : Lined older first (front ++ (w, phase) :: back) table)
    {table' : LockTable} (change : Lock → Lock)
    (changed : ∀ n, table'.get n = if w.name = n then change (table.get n) else table.get n)
    (orderly : (change (table.get w.name)).Orderly)
    (queue : (change (table.get w.name)).queue = (older w.name).toList ++
      (lineup w.name first front ++ ((if phase'.lined then [first + front.length] else []) ++
        lineup w.name (first + front.length + 1) back))) :
    Lined older first (front ++ (w, phase') :: back) table' := by
  constructor
  · intro n
    rw [changed]
    split
    · next same => exact same ▸ orderly
    · exact lined.orderly n
  · intro n
    rw [changed, lineup_append, lineup_cons]
    by_cases same : w.name = n
    · subst same
      rw [if_pos rfl, queue]
      simp only [true_and]
    · rw [if_neg same, lined.queue, lineup_append, lineup_cons]
      simp only [same, false_and]

theorem Lined.stay (lined : Lined older first (front ++ (w, phase) :: back) table)
    (same : phase.lined = phase'.lined) :
    Lined older first (front ++ (w, phase') :: back) table := by
  refine ⟨lined.orderly, ?_⟩
  intro n
  rw [lined.queue, lineup_append, lineup_append, lineup_cons, lineup_cons, same]

theorem Lined.queue_own (lined : Lined older first (front ++ (w, phase) :: back) table)
    (inside : phase.lined = true) :
    (table.get w.name).queue = ((older w.name).toList ++ lineup w.name first front) ++
      (first + front.length) :: lineup w.name (first + front.length + 1) back := by
  rw [lined.queue, lineup_append, lineup_cons, if_pos ⟨rfl, inside⟩, List.append_assoc]
  rfl

theorem Lined.request (lined : Lined older first (front ++ (w, .outside) :: back) table)
    (early : ∀ name who, older name = some who → who < first)
    (unasked : lineup w.name (first + front.length + 1) back = []) (deadline : Nat) :
    Lined older first (front ++ (w, .waiting deadline) :: back)
      (table.request w.name (first + front.length)) := by
  have before : (table.get w.name).queue = (older w.name).toList ++ lineup w.name first front := by
    rw [lined.queue, lineup_append, lineup_cons, unasked]
    simp [Phase.lined]
  have outside : first + front.length ∉ (table.get w.name).queue := by
    rw [before, List.mem_append, Option.mem_toList]
    rintro (older' | mem)
    · have bound := early _ _ older'
      omega
    · have bounds := bounds_of_lineup mem
      omega
  apply lined.move (·.request (first + front.length)) (fun n => LockTable.get_request ..)
  · exact Lock.orderly_request (lined.orderly _) outside
  · rw [Lock.queue_request (lined.orderly _), before, unasked]
    simp [Phase.lined]

theorem Lined.withdraw (lined : Lined older first (front ++ (w, phase) :: back) table)
    (inside : phase.lined = true) (unheld : ¬ table.Holds w.name (first + front.length))
    (start : Option Nat) :
    Lined older first (front ++ (w, .finished start) :: back)
      (table.withdraw w.name (first + front.length)) := by
  apply lined.move (·.withdraw (first + front.length)) (fun n => LockTable.get_withdraw ..)
  · exact Lock.orderly_withdraw (lined.orderly _) unheld
  · rw [Lock.queue_withdraw_middle (lined.orderly _) (lined.queue_own inside) unheld,
      List.append_assoc]
    rfl

/-- Whoever is in line holds the lock just if nobody is in front of it. -/
theorem Lined.holds_iff (lined : Lined older first (front ++ (w, phase) :: back) table)
    (early : ∀ name who, older name = some who → who < first) (inside : phase.lined = true) :
    table.Holds w.name (first + front.length) ↔
      older w.name = none ∧ lineup w.name first front = [] := by
  rw [LockTable.Holds, Lock.holder_eq_head (lined.orderly _), lined.queue_own inside]
  constructor
  · intro head
    cases held : older w.name with
    | some who =>
      rw [held] at head
      have bound := early _ _ held
      have same : who = first + front.length := Option.some.inj head
      omega
    | none =>
      refine ⟨rfl, ?_⟩
      cases line : lineup w.name first front with
      | nil => rfl
      | cons who rest =>
        rw [held, line] at head
        have bounds := bounds_of_lineup (line ▸ List.mem_cons_self : who ∈ _)
        have same : who = first + front.length := Option.some.inj head
        omega
  · rintro ⟨free, alone⟩
    rw [free, alone]
    rfl

theorem Lined.release (lined : Lined older first (front ++ (w, phase) :: back) table)
    (inside : phase.lined = true) (free : older w.name = none)
    (alone : lineup w.name first front = []) (start : Option Nat) :
    Lined older first (front ++ (w, .finished start) :: back) (table.release w.name) := by
  apply lined.move Lock.release (fun n => LockTable.get_release ..)
  · exact Lock.orderly_release (lined.orderly _)
  · have own := lined.queue_own inside
    rw [free, alone] at own ⊢
    exact Lock.queue_release_cons (lined.orderly _) own

end Lines

section Turns

theorem lineup_standing (free : older name = none) :
    lineup name number (standing (some now) (plan older waiters)) = [] ↔
      spent name (plan older waiters) ≤ now := by
  rw [lineup_eq_nil]
  constructor
  · intro through
    apply Nat.le_of_not_lt
    intro busy
    obtain ⟨v, t, mem, same, since, until'⟩ := exists_holder busy
    have lined := through _ (List.mem_map_of_mem mem) same
    rw [phaseAt_holding since until'] at lined
    contradiction
  · intro elapsed a there same
    obtain ⟨⟨v, start⟩, mem, rfl⟩ := List.mem_map.mp there
    dsimp only at same ⊢
    cases start with
    | some t =>
      rw [phaseAt_through (Nat.le_trans (leaves_of_mem mem same rfl) elapsed)]
      rfl
    | none =>
      obtain ⟨before, after, split⟩ := List.append_of_mem mem
      obtain ⟨-, refused⟩ := plan_split split
      have late : v.timeout < spent v.name before := late_of_none (by rwa [same]) refused.symm
      rw [split, ← List.singleton_append, spent_append] at elapsed
      rw [same] at late
      rw [phaseAt_refused (by omega)]
      rfl

theorem Lined.holds_iff_turn {entries : List Entry} (planned : entries = plan older waiters)
    (lined : Lined older first (standing (some now) entries ++ (w, phase) :: back) table)
    (early : ∀ name who, older name = some who → who < first) (inside : phase.lined = true)
    (soon : now ≤ w.timeout) :
    table.Holds w.name (first + entries.length) ↔ ∃ t, turn? older entries w = some t ∧ t ≤ now := by
  have length : (standing (some now) entries).length = entries.length := List.length_map _
  rw [← length, lined.holds_iff early inside]
  constructor
  · rintro ⟨free, alone⟩
    rw [planned, lineup_standing free, ← planned] at alone
    exact ⟨_, turn_eq_some.mpr ⟨free, Nat.le_trans alone soon, rfl⟩, alone⟩
  · rintro ⟨t, served, come⟩
    obtain ⟨free, -, rfl⟩ := turn_eq_some.mp served
    refine ⟨free, ?_⟩
    rw [planned, lineup_standing free, ← planned]
    exact come

end Turns

section Visits

variable {entries : List Entry} {s : State} {start : Option Nat}

theorem enter_planned (planned : entries = plan older waiters)
    (lined : Lined older first (standing (some now) entries ++ (w, phase) :: back) s.table)
    (inside : phase.lined = true) (served : turn? older entries w = some now) :
    ∃ table, enter s now entries.length w =
        (phaseAt (some now) (w, some now), ⟨table, s.order ++ [entries.length]⟩) ∧
      Lined older first (standing (some now) entries ++
        (w, phaseAt (some now) (w, some now)) :: back) table := by
  unfold enter
  by_cases instant : w.hold = 0
  · obtain ⟨free, -, elapsed⟩ := turn_eq_some.mp served
    have alone : lineup w.name first (standing (some now) entries) = [] := by
      rw [planned, lineup_standing free, ← planned]
      exact Nat.le_of_eq elapsed.symm
    rw [if_pos instant, phaseAt_through (by omega)]
    exact ⟨_, rfl, lined.release inside free alone _⟩
  · rw [if_neg instant, phaseAt_holding (Nat.le_refl now) (by omega)]
    exact ⟨_, rfl, lined.stay inside⟩

theorem await_planned (planned : entries = plan older waiters)
    (lined : Lined older first (standing (some now) entries ++ (w, .waiting w.timeout) :: back) s.table)
    (early : ∀ name who, older name = some who → who < first)
    (turn : start = turn? older entries w) (soon : now ≤ ending (w, start)) :
    ∃ table, proceed s now entries.length w
        (s.table.await w.name (first + entries.length) now w.timeout) =
        (phaseAt (some now) (w, start),
          ⟨table, s.order ++ if start = some now then [entries.length] else []⟩) ∧
      Lined older first (standing (some now) entries ++
        (w, phaseAt (some now) (w, start)) :: back) table := by
  have length : (standing (some now) entries).length = entries.length := List.length_map _
  have patient : now ≤ w.timeout := by
    cases start with
    | none => exact soon
    | some t => exact Nat.le_trans soon (turn_eq_some.mp turn.symm).2.1
  have holds := lined.holds_iff_turn planned early rfl patient
  rw [← turn] at holds
  unfold LockTable.await
  by_cases come : start = some now
  · subst come
    rw [if_pos (holds.mpr ⟨now, rfl, Nat.le_refl now⟩), if_pos rfl]
    exact enter_planned planned lined rfl turn.symm
  · have unheld : ¬ s.table.Holds w.name (first + entries.length) := by
      intro held
      obtain ⟨t, rfl, past⟩ := holds.mp held
      exact come (congrArg some (Nat.le_antisymm past soon))
    rw [if_neg unheld, if_neg come, List.append_nil]
    by_cases late : w.timeout ≤ now
    · have refused : start = none := by
        cases start with
        | none => rfl
        | some t => exact absurd (congrArg some (Nat.le_antisymm
            (Nat.le_trans (turn_eq_some.mp turn.symm).2.1 late) soon)) come
      subst refused
      rw [if_pos late, phaseAt_refused late]
      rw [← length] at unheld
      exact ⟨_, rfl, length ▸ lined.withdraw rfl unheld none⟩
    · have before : now < ending (w, start) := by
        cases start with
        | none => exact Nat.lt_of_not_le late
        | some t => exact Nat.lt_of_le_of_ne soon fun same => come (congrArg some same.symm)
      rw [if_neg late, phaseAt_waiting before]
      exact ⟨_, rfl, lined⟩

theorem enter_eq_await (table : LockTable) (name : String) (who now timeout : Nat) :
    table.enter name who now timeout =
      (table.request name who).await name who now (now + timeout) := by
  have impatient : now + timeout ≤ now ↔ timeout = 0 := by omega
  unfold LockTable.enter LockTable.await
  simp only [impatient]

theorem proceed_table (s : State) (table : LockTable) (now index : Nat) (w : Waiter)
    (looked : Attempt × LockTable) :
    proceed s now index w looked = proceed { s with table } now index w looked := by
  obtain ⟨attempt, looked⟩ := looked
  cases attempt <;> rfl

theorem visit_settled {past : Nat} (planned : entries = plan older waiters)
    (lined : Lined older first (standing (some now) entries ++
      (w, phaseAt (some past) (w, start)) :: back) s.table)
    (turn : start = turn? older entries w) (settled : ending (w, start) ≤ past) (later : past < now) :
    ∃ table, visit first s now entries.length w (phaseAt (some past) (w, start)) =
        (phaseAt (some now) (w, start), ⟨table, s.order⟩) ∧
      Lined older first (standing (some now) entries ++
        (w, phaseAt (some now) (w, start)) :: back) table := by
  rcases phaseAt_settled settled with ⟨t, rfl, still, phase⟩ | ⟨phase, elapsed⟩
  · dsimp only at phase
    dsimp [ending] at settled
    rw [phase] at lined ⊢
    rw [visit]
    by_cases leaves : t + w.hold ≤ now
    · obtain ⟨free, -, spent_eq⟩ := turn_eq_some.mp turn.symm
      have alone : lineup w.name first (standing (some now) entries) = [] := by
        rw [planned, lineup_standing free, ← planned]
        omega
      rw [if_pos leaves, phaseAt_through leaves]
      exact ⟨_, rfl, lined.release rfl free alone _⟩
    · rw [if_neg leaves, phaseAt_holding (by omega) (by omega)]
      exact ⟨_, rfl, lined⟩
  · rw [phase] at lined ⊢
    have through : phaseAt (some now) (w, start) = .finished start := by
      apply phaseAt_finished
      · omega
      · intro t served
        exact Nat.le_trans (elapsed t served) (Nat.le_of_lt later)
    rw [through, visit]
    exact ⟨_, rfl, lined⟩

theorem visit_planned {rest : List Entry} (planned : entries = plan older waiters)
    (lined : Lined older first (standing (some now) entries ++
      (w, phaseAt clock (w, start)) :: standing clock rest) s.table)
    (early : ∀ name who, older name = some who → who < first)
    (turn : start = turn? older entries w) (quiet : Quiet now (w, start) clock) :
    ∃ table, visit first s now entries.length w (phaseAt clock (w, start)) =
        (phaseAt (some now) (w, start),
          ⟨table, s.order ++ if start = some now then [entries.length] else []⟩) ∧
      Lined older first (standing (some now) entries ++
        (w, phaseAt (some now) (w, start)) :: standing clock rest) table := by
  have length : (standing (some now) entries).length = entries.length := List.length_map _
  cases clock with
  | none =>
    obtain rfl : now = 0 := quiet
    have asked := lined.request early (lineup_outside _ _ rest) w.timeout
    rw [length] at asked
    rw [phaseAt, visit, enter_eq_await, Nat.zero_add, proceed_table s (s.table.request _ _)]
    exact await_planned planned asked early turn (Nat.zero_le _)
  | some past =>
    obtain ⟨later, settled | ahead⟩ := quiet
    · have missed : start ≠ some now := by
        rintro rfl
        exact absurd later (Nat.not_lt.mpr settled)
      rw [if_neg missed, List.append_nil]
      exact visit_settled planned lined turn settled later
    · rw [phaseAt_waiting (Nat.lt_of_lt_of_le later ahead)] at lined ⊢
      exact await_planned planned lined early turn ahead

theorem pass_cons (first now index : Nat) (w : Waiter) (phase : Phase) (s : State) :
    (discipline first).pass now index ((w, phase) :: back) s =
      ((w, (visit first s now index w phase).1) ::
          ((discipline first).pass now (index + 1) back (visit first s now index w phase).2).1,
        ((discipline first).pass now (index + 1) back (visit first s now index w phase).2).2) :=
  rfl

/-- A pass takes everybody to where the plan has it at the moment of the pass. -/
theorem pass_planned (early : ∀ name who, older name = some who → who < first) (now : Nat)
    (clock : Option Nat) (waiters : List Waiter) (rest : List Entry) :
    ∀ (entries : List Entry) (s : State), plan older waiters = entries ++ rest →
      (∀ e ∈ rest, Quiet now e clock) →
      Lined older first (standing (some now) entries ++ standing clock rest) s.table →
      ∃ table, (discipline first).pass now entries.length (standing clock rest) s =
          (standing (some now) rest, ⟨table, s.order ++ entrants now entries.length rest⟩) ∧
        Lined older first (standing (some now) (plan older waiters)) table := by
  induction rest with
  | nil =>
    intro entries s split _ lined
    refine ⟨s.table, ?_, ?_⟩
    · exact congrArg (Prod.mk _) (congrArg (State.mk _) (List.append_nil s.order).symm)
    · rw [standing, standing, List.map_nil, List.append_nil] at lined
      rw [split, List.append_nil]
      exact lined
  | cons e rest ih =>
    intro entries s split quiet lined
    obtain ⟨w, start⟩ := e
    obtain ⟨planned, turn⟩ := plan_split split
    obtain ⟨table, visited, lined'⟩ := visit_planned planned lined early turn
      (quiet _ List.mem_cons_self)
    have here : standing (some now) entries ++ (w, phaseAt (some now) (w, start)) :: standing clock rest
        = standing (some now) (entries ++ [(w, start)]) ++ standing clock rest := by
      simp [standing]
    rw [here] at lined'
    obtain ⟨table', passed, lined''⟩ := ih (entries ++ [(w, start)])
      ⟨table, s.order ++ if start = some now then [entries.length] else []⟩ (by simp [split])
      (fun e mem => quiet e (List.mem_cons_of_mem _ mem)) lined'
    refine ⟨table', ?_, lined''⟩
    rw [List.length_append, List.length_singleton] at passed
    rw [standing, List.map_cons, ← standing, pass_cons, visited, passed, entrants, entrants, List.zipIdx_cons, List.filter_cons]
    by_cases come : start = some now <;> simp [standing, come]

end Visits

end Race

end MatrixSession
