import Mathlib.Data.List.Nodup
import Mathlib.Logic.Function.Basic
import MatrixSession.Lock

/-!
Any number of attempts at named locks, over time. An attempt asks for a lock, is looked after while it
waits, and gives the lock back; time goes on, but not past the deadline of one who still waits.
-/
namespace MatrixSession

namespace Lock

variable {l : Lock} {who : Nat}

def queue (l : Lock) : List Nat := l.holder.toList ++ l.line

structure Orderly (l : Lock) : Prop where
  served : l.holder = none → l.line = []
  nodup : l.queue.Nodup

theorem orderly_free : free.Orderly := ⟨fun _ => rfl, List.nodup_nil⟩

theorem queue_request (orderly : l.Orderly) : (l.request who).queue = l.queue ++ [who] := by
  obtain ⟨holder, line⟩ := l
  cases holder with
  | none =>
    obtain rfl : line = [] := orderly.served rfl
    rfl
  | some other => exact (List.append_assoc [other] line [who]).symm

theorem orderly_request (orderly : l.Orderly) (outside : who ∉ l.queue) :
    (l.request who).Orderly := by
  constructor
  · intro free
    unfold request at free
    split at free
    · contradiction
    · rename_i held
      simp only at free
      exact absurd (Option.isNone_iff_eq_none.mpr free) held
  · rw [queue_request orderly, List.nodup_append]
    refine ⟨orderly.nodup, List.nodup_singleton who, ?_⟩
    intro other inside _ mem same
    obtain rfl := List.mem_singleton.mp mem
    exact outside (same ▸ inside)

theorem keeps_request {other : Nat} (held : l.holder = some other) :
    (l.request who).holder = some other := by
  rw [request, held]
  rfl

theorem withdraw_request {other : Nat} (held : l.holder = some other) (outside : who ∉ l.queue) :
    (l.request who).withdraw who = l := by
  obtain ⟨holder, line⟩ := l
  obtain rfl : holder = some other := held
  have absent : ∀ x ∈ line, x ≠ who := by
    rintro x inside rfl
    exact outside (List.mem_cons_of_mem other inside)
  simpa [request, withdraw] using absent

theorem queue_release : l.release.queue = l.line := by
  obtain ⟨holder, line⟩ := l
  cases line <;> rfl

theorem orderly_release (orderly : l.Orderly) : l.release.Orderly := by
  constructor
  · obtain ⟨holder, line⟩ := l
    cases line with
    | nil => exact fun _ => rfl
    | cons first rest => exact fun free => absurd free (Option.some_ne_none first)
  · rw [queue_release]
    exact (List.nodup_append.mp orderly.nodup).2.1

theorem queue_withdraw (unheld : l.holder ≠ some who) :
    (l.withdraw who).queue = l.queue.filter (· ≠ who) := by
  obtain ⟨holder, line⟩ := l
  cases holder with
  | none => rfl
  | some other =>
    have different : other ≠ who := fun same => unheld (congrArg some same)
    simp [queue, withdraw, different]

theorem orderly_withdraw (orderly : l.Orderly) (unheld : l.holder ≠ some who) :
    (l.withdraw who).Orderly := by
  constructor
  · intro free
    rw [withdraw, orderly.served free]
    rfl
  · rw [queue_withdraw unheld]
    exact orderly.nodup.filter _

end Lock

namespace LockTable

variable (t : LockTable) (name other : String) (who : Nat)

theorem get_request :
    (t.request name who).get other =
      if name = other then (t.get other).request who else t.get other :=
  t.get_update name other _

theorem get_withdraw :
    (t.withdraw name who).get other =
      if name = other then (t.get other).withdraw who else t.get other :=
  t.get_update name other _

theorem get_release :
    (t.release name).get other = if name = other then (t.get other).release else t.get other :=
  t.get_update name other _

end LockTable

inductive Standing where
  | away
  | waiting (name : String) (deadline : Nat)
  | holding (name : String)
  deriving DecidableEq

def Standing.name? : Standing → Option String
  | away => none
  | waiting name _ | holding name => some name

/-- Everyone who may ask for a lock, with the locks and the time. -/
structure Hall where
  table : LockTable
  now : Nat
  stands : Nat → Standing

namespace Hall

inductive Turn where
  | enter (who : Nat) (name : String) (timeout : Nat)
  | await (who : Nat)
  | drop (who : Nat) (name : String)
  | pass (time : Nat)
  deriving DecidableEq

def proceed (h : Hall) (who : Nat) (name : String) : Attempt × LockTable → Hall
  | (.waiting deadline, table) => ⟨table, h.now, Function.update h.stands who (.waiting name deadline)⟩
  | (.granted, table) => ⟨table, h.now, Function.update h.stands who (.holding name)⟩
  | (.refused, table) => ⟨table, h.now, Function.update h.stands who .away⟩

inductive Step (h : Hall) : Turn → Hall → Prop
  | enter {who : Nat} (name : String) (timeout : Nat) (away : h.stands who = .away) :
      Step h (.enter who name timeout)
        (h.proceed who name (h.table.enter name who h.now timeout))
  | await {who : Nat} {name : String} {deadline : Nat}
      (waits : h.stands who = .waiting name deadline) :
      Step h (.await who) (h.proceed who name (h.table.await name who h.now deadline))
  | drop {who : Nat} {name : String} (holds : h.stands who = .holding name) :
      Step h (.drop who name)
        ⟨h.table.release name, h.now, Function.update h.stands who .away⟩
  | pass (time : Nat)
      (punctual : ∀ who name deadline, h.stands who = .waiting name deadline →
        h.now + time ≤ deadline) :
      Step h (.pass time) { h with now := h.now + time }

inductive Path : Hall → List Turn → Hall → Prop
  | nil (h : Hall) : Path h [] h
  | cons {h h' h'' : Hall} {turn : Turn} {turns : List Turn} (first : Step h turn h')
      (rest : Path h' turns h'') : Path h (turn :: turns) h''

def opening : Hall := ⟨.empty, 0, fun _ => .away⟩

/-- The locks and those who stand at them agree, and nobody waits past a deadline. -/
structure Sound (h : Hall) : Prop where
  orderly : ∀ name, (h.table.get name).Orderly
  queued : ∀ name who, who ∈ (h.table.get name).queue ↔ (h.stands who).name? = some name
  served : ∀ name who, h.stands who = .holding name → (h.table.get name).holder = some who
  punctual : ∀ who name deadline, h.stands who = .waiting name deadline → h.now ≤ deadline

inductive Move (h : Hall) : Turn → Hall → Prop
  | take {who : Nat} {name : String} (timeout : Nat) (away : h.stands who = .away)
      (free : (h.table.get name).holder = none) :
      Move h (.enter who name timeout)
        ⟨h.table.request name who, h.now, Function.update h.stands who (.holding name)⟩
  | refuse {who other : Nat} {name : String} (away : h.stands who = .away)
      (held : (h.table.get name).holder = some other) :
      Move h (.enter who name 0)
        ⟨(h.table.request name who).withdraw name who, h.now, Function.update h.stands who .away⟩
  | queue {who other : Nat} {name : String} {timeout : Nat} (away : h.stands who = .away)
      (held : (h.table.get name).holder = some other) (patient : timeout ≠ 0) :
      Move h (.enter who name timeout)
        ⟨h.table.request name who, h.now,
          Function.update h.stands who (.waiting name (h.now + timeout))⟩
  | serve {who : Nat} {name : String} {deadline : Nat}
      (waits : h.stands who = .waiting name deadline)
      (holds : (h.table.get name).holder = some who) :
      Move h (.await who) ⟨h.table, h.now, Function.update h.stands who (.holding name)⟩
  | giveUp {who : Nat} {name : String} {deadline : Nat}
      (waits : h.stands who = .waiting name deadline)
      (unheld : (h.table.get name).holder ≠ some who) (late : deadline ≤ h.now) :
      Move h (.await who)
        ⟨h.table.withdraw name who, h.now, Function.update h.stands who .away⟩
  | keep {who : Nat} {name : String} {deadline : Nat}
      (waits : h.stands who = .waiting name deadline)
      (unheld : (h.table.get name).holder ≠ some who) (early : h.now < deadline) :
      Move h (.await who) h
  | drop {who : Nat} {name : String} (holds : h.stands who = .holding name) :
      Move h (.drop who name) ⟨h.table.release name, h.now, Function.update h.stands who .away⟩
  | pass (time : Nat)
      (punctual : ∀ who name deadline, h.stands who = .waiting name deadline →
        h.now + time ≤ deadline) :
      Move h (.pass time) { h with now := h.now + time }

section Moves

variable {h h' : Hall} {turn : Turn}

theorem Sound.absent (sound : h.Sound) {who : Nat} (away : h.stands who = .away) (name : String) :
    who ∉ (h.table.get name).queue := by
  rw [sound.queued, away]
  exact Option.some_ne_none name ∘ Eq.symm

theorem holder_mem {l : Lock} {who : Nat} (held : l.holder = some who) : who ∈ l.queue := by
  rw [Lock.queue, held]
  exact List.mem_cons_self

theorem holds_request (t : LockTable) (name : String) (who : Nat) :
    ((t.get name).holder = none → (t.request name who).Holds name who) ∧
      ∀ other, (t.get name).holder = some other → other ≠ who →
        ¬ (t.request name who).Holds name who := by
  unfold LockTable.Holds
  rw [LockTable.get_request, if_pos rfl, Lock.request]
  constructor
  · intro free
    rw [free]
    rfl
  · intro other held different
    rw [held]
    exact fun same => different (Option.some.inj same)

theorem move_of_step (sound : h.Sound) (step : Step h turn h') : Move h turn h' := by
  cases step with
  | @enter who name timeout away =>
    obtain ⟨granted, waits⟩ := holds_request h.table name who
    unfold LockTable.enter
    cases held : (h.table.get name).holder with
    | none =>
      simp only [if_pos (granted held)]
      exact .take timeout away held
    | some other =>
      have different : other ≠ who := by
        rintro rfl
        exact sound.absent away name (holder_mem held)
      simp only [if_neg (waits other held different)]
      by_cases impatient : timeout = 0
      · subst impatient
        exact .refuse away held
      · rw [if_neg impatient]
        exact .queue away held impatient
  | @await who name deadline waits =>
    unfold LockTable.await
    by_cases holds : h.table.Holds name who
    · rw [if_pos holds]
      exact .serve waits holds
    · rw [if_neg holds]
      by_cases late : deadline ≤ h.now
      · rw [if_pos late]
        exact .giveUp waits holds late
      · rw [if_neg late]
        have same : h.proceed who name (.waiting deadline, h.table) = h := by
          rw [proceed, ← waits, Function.update_eq_self]
        rw [same]
        exact .keep waits holds (Nat.lt_of_not_le late)
  | drop holds => exact .drop holds
  | pass time punctual => exact .pass time punctual

theorem update_cases {stands : Nat → Standing} {who x : Nat} {standing found : Standing}
    (stand : Function.update stands who standing x = found) :
    (x = who ∧ standing = found) ∨ (x ≠ who ∧ stands x = found) := by
  by_cases own : x = who
  · subst own
    exact .inl ⟨rfl, (Function.update_self ..).symm.trans stand⟩
  · exact .inr ⟨own, (Function.update_of_ne own ..).symm.trans stand⟩

theorem queued_join {t t' : LockTable} {stands : Nat → Standing} {who : Nat} {name : String}
    {standing : Standing}
    (queued : ∀ n x, x ∈ (t.get n).queue ↔ (stands x).name? = some n) (away : stands who = .away)
    (asks : standing.name? = some name)
    (joined : ∀ n, (t'.get n).queue = if name = n then (t.get n).queue ++ [who] else (t.get n).queue)
    (n : String) (x : Nat) :
    x ∈ (t'.get n).queue ↔ (Function.update stands who standing x).name? = some n := by
  rw [joined]
  by_cases own : x = who
  · subst own
    have outside : x ∉ (t.get n).queue := by
      rw [queued, away]
      exact Option.some_ne_none n ∘ Eq.symm
    rw [Function.update_self, asks]
    split
    · rename_i same
      simp [same]
    · rename_i different
      simp [outside, different]
  · rw [Function.update_of_ne own, ← queued]
    split <;> simp [own]

theorem queued_leave {t t' : LockTable} {stands : Nat → Standing} {who : Nat} {name : String}
    (queued : ∀ n x, x ∈ (t.get n).queue ↔ (stands x).name? = some n)
    (there : (stands who).name? = some name)
    (left : ∀ n x, x ∈ (t'.get n).queue ↔
      x ∈ (t.get n).queue ∧ ¬ (name = n ∧ x = who)) (n : String) (x : Nat) :
    x ∈ (t'.get n).queue ↔ (Function.update stands who .away x).name? = some n := by
  rw [left, queued]
  by_cases own : x = who
  · subst own
    rw [Function.update_self, there]
    simp [Standing.name?]
  · rw [Function.update_of_ne own]
    simp [own]

theorem Sound.of_same (sound : h.Sound) (table : ∀ n, h'.table.get n = h.table.get n)
    (now : h'.now = h.now) (stands : h'.stands = h.stands) : h'.Sound := by
  constructor
  · intro n
    rw [table]
    exact sound.orderly n
  · intro n x
    rw [table, stands]
    exact sound.queued n x
  · intro n x
    rw [table, stands]
    exact sound.served n x
  · intro x n d
    rw [stands, now]
    exact sound.punctual x n d

theorem sound_join (sound : h.Sound) {who : Nat} {name : String} {standing : Standing}
    (away : h.stands who = .away) (asks : standing.name? = some name)
    (served : standing = .holding name → (h.table.get name).holder = none)
    (punctual : ∀ deadline, standing = .waiting name deadline → h.now ≤ deadline) :
    (⟨h.table.request name who, h.now, Function.update h.stands who standing⟩ : Hall).Sound := by
  constructor
  · intro n
    rw [LockTable.get_request]
    split
    · exact Lock.orderly_request (sound.orderly n) (sound.absent away n)
    · exact sound.orderly n
  · refine queued_join sound.queued away asks fun n => ?_
    rw [LockTable.get_request]
    split
    · exact Lock.queue_request (sound.orderly n)
    · rfl
  · intro n x holds
    rw [LockTable.get_request]
    obtain ⟨rfl, rfl⟩ | ⟨other, holds⟩ := update_cases holds
    · obtain rfl : n = name := Option.some.inj asks
      rw [if_pos rfl, Lock.request, served rfl]
      rfl
    · have held := sound.served n x holds
      split
      · exact Lock.keeps_request held
      · exact held
  · intro x n d waits
    obtain ⟨rfl, rfl⟩ | ⟨other, waits⟩ := update_cases waits
    · obtain rfl : n = name := Option.some.inj asks
      exact punctual d rfl
    · exact sound.punctual x n d waits

theorem sound_leave (sound : h.Sound) {t : LockTable} {who : Nat} {name : String}
    (there : (h.stands who).name? = some name) (orderly : ∀ n, (t.get n).Orderly)
    (left : ∀ n x, x ∈ (t.get n).queue ↔ x ∈ (h.table.get n).queue ∧ ¬ (name = n ∧ x = who))
    (kept : ∀ n x, x ≠ who → (h.table.get n).holder = some x → (t.get n).holder = some x) :
    (⟨t, h.now, Function.update h.stands who .away⟩ : Hall).Sound := by
  refine ⟨orderly, queued_leave sound.queued there left, ?_, ?_⟩
  · intro n x holds
    obtain ⟨-, gone⟩ | ⟨other, holds⟩ := update_cases holds
    · contradiction
    · exact kept n x other (sound.served n x holds)
  · intro x n d waits
    obtain ⟨-, gone⟩ | ⟨other, waits⟩ := update_cases waits
    · contradiction
    · exact sound.punctual x n d waits

theorem sound_serve (sound : h.Sound) {who : Nat} {name : String} {deadline : Nat}
    (waits : h.stands who = .waiting name deadline)
    (holds : (h.table.get name).holder = some who) :
    (⟨h.table, h.now, Function.update h.stands who (.holding name)⟩ : Hall).Sound := by
  refine ⟨sound.orderly, ?_, ?_, ?_⟩
  · intro n x
    dsimp only
    rw [sound.queued]
    by_cases own : x = who
    · subst own
      rw [Function.update_self, waits]
      rfl
    · rw [Function.update_of_ne own]
  · intro n x held
    obtain ⟨rfl, same⟩ | ⟨-, held⟩ := update_cases held
    · obtain rfl := Standing.holding.inj same
      exact holds
    · exact sound.served n x held
  · intro x n d waits
    obtain ⟨-, served⟩ | ⟨-, waits⟩ := update_cases waits
    · contradiction
    · exact sound.punctual x n d waits

theorem sound_give_up (sound : h.Sound) {who : Nat} {name : String} {deadline : Nat}
    (waits : h.stands who = .waiting name deadline)
    (unheld : (h.table.get name).holder ≠ some who) :
    (⟨h.table.withdraw name who, h.now, Function.update h.stands who .away⟩ : Hall).Sound := by
  refine sound_leave sound (by rw [waits]; rfl) ?_ ?_ ?_
  · intro n
    rw [LockTable.get_withdraw]
    split
    · rename_i same
      subst same
      exact Lock.orderly_withdraw (sound.orderly name) unheld
    · exact sound.orderly n
  · intro n x
    rw [LockTable.get_withdraw]
    split
    · rename_i same
      subst same
      rw [Lock.queue_withdraw unheld]
      simp
    · rename_i different
      simp [different]
  · intro n x _ held
    rw [LockTable.get_withdraw]
    split <;> exact held

theorem sound_drop (sound : h.Sound) {who : Nat} {name : String}
    (holds : h.stands who = .holding name) :
    (⟨h.table.release name, h.now, Function.update h.stands who .away⟩ : Hall).Sound := by
  have held := sound.served name who holds
  refine sound_leave sound (by rw [holds]; rfl) ?_ ?_ ?_
  · intro n
    rw [LockTable.get_release]
    split
    · exact Lock.orderly_release (sound.orderly n)
    · exact sound.orderly n
  · intro n x
    rw [LockTable.get_release]
    split
    · rename_i same
      subst same
      have whole : (h.table.get name).queue = who :: (h.table.get name).line := by
        rw [Lock.queue, held]
        rfl
      have once := (sound.orderly name).nodup
      rw [whole, List.nodup_cons] at once
      rw [Lock.queue_release, whole, List.mem_cons]
      constructor
      · intro inside
        refine ⟨.inr inside, ?_⟩
        rintro ⟨-, rfl⟩
        exact once.1 inside
      · rintro ⟨rfl | inside, other⟩
        · exact absurd ⟨rfl, rfl⟩ other
        · exact inside
    · rename_i different
      simp [different]
  · intro n x other held'
    rw [LockTable.get_release]
    split
    · rename_i same
      subst same
      exact absurd (Option.some.inj (held'.symm.trans held)) other
    · exact held'

theorem sound_step (sound : h.Sound) (step : Step h turn h') : h'.Sound := by
  cases move_of_step sound step with
  | take timeout away free =>
    exact sound_join sound away rfl (fun _ => free) nofun
  | queue away held patient =>
    refine sound_join sound away rfl nofun ?_
    rintro _ ⟨⟩
    exact Nat.le_add_right _ _
  | @refuse who other name away held =>
    refine sound.of_same ?_ rfl ?_
    · intro n
      rw [LockTable.get_withdraw, LockTable.get_request]
      split
      · rename_i same
        subst same
        exact Lock.withdraw_request held (sound.absent away name)
      · rfl
    · rw [← away]
      exact Function.update_eq_self who h.stands
  | serve waits holds => exact sound_serve sound waits holds
  | giveUp waits unheld late => exact sound_give_up sound waits unheld
  | keep => exact sound
  | drop holds => exact sound_drop sound holds
  | pass time punctual => exact ⟨sound.orderly, sound.queued, sound.served, punctual⟩

theorem sound_path {turns : List Turn} (sound : h.Sound) (path : Path h turns h') : h'.Sound := by
  induction path with
  | nil => exact sound
  | cons first rest ih => exact ih (sound_step sound first)

theorem sound_opening : opening.Sound := by
  refine ⟨fun _ => Lock.orderly_free, fun name who => ?_, nofun, nofun⟩
  constructor
  · intro inside
    contradiction
  · intro stands
    contradiction

end Moves

end Hall

end MatrixSession
