import MatrixSession.Proofs.Lock.Hall

/-!
What becomes of an attempt at a lock on its way. A holder stays the holder until it gives the lock
back, and one who waits without rivals gets the lock just if it is given back in the meantime.
-/
namespace MatrixSession

namespace Hall

def Turn.who? : Turn → Option Nat
  | enter who .. | await who | drop who _ => some who
  | pass _ => none

variable {h h' h'' : Hall} {turn : Turn} {turns : List Turn} {who : Nat} {name : String}

def Alone (h : Hall) (who : Nat) (name : String) : Prop :=
  ∀ other deadline, other ≠ who → h.stands other ≠ .waiting name deadline

def Unrivalled (who : Nat) (name : String) (turns : List Turn) : Prop :=
  ∀ other timeout, other ≠ who → .enter other name timeout ∉ turns

def OnlyWaits (who : Nat) (turns : List Turn) : Prop :=
  ∀ turn ∈ turns, turn.who? = some who → turn = .await who

/-- On the way, a guard of the lock is dropped while `who` waits for it. -/
def Handed (who : Nat) (name : String) (h : Hall) (turns : List Turn) (h' : Hall) : Prop :=
  ∃ before other after deadline middle middle', turns = before ++ .drop other name :: after ∧
    Path h before middle ∧ middle.stands who = .waiting name deadline ∧
    Step middle (.drop other name) middle' ∧ Path middle' after h'

section Steps

theorem Sound.exclusive (sound : h.Sound) {other : Nat} (holds : h.stands who = .holding name)
    (holds' : h.stands other = .holding name) : who = other :=
  Option.some.inj ((sound.served name who holds).symm.trans (sound.served name other holds'))

theorem Sound.stands_of_mem (sound : h.Sound) (inside : who ∈ (h.table.get name).queue) :
    h.stands who = .holding name ∨ ∃ deadline, h.stands who = .waiting name deadline := by
  have asks := (sound.queued name who).mp inside
  cases stands : h.stands who with
  | away =>
    rw [stands] at asks
    contradiction
  | waiting name' deadline =>
    rw [stands] at asks
    obtain rfl := Option.some.inj asks
    exact .inr ⟨deadline, rfl⟩
  | holding name' =>
    rw [stands] at asks
    obtain rfl := Option.some.inj asks
    exact .inl rfl

theorem Sound.stands_of_holder (sound : h.Sound) (held : (h.table.get name).holder = some who) :
    h.stands who = .holding name ∨ ∃ deadline, h.stands who = .waiting name deadline :=
  sound.stands_of_mem (holder_mem held)

theorem stands_step (step : Step h turn h') (other : turn.who? ≠ some who) :
    h'.stands who = h.stands who := by
  have proceeded {x : Nat} (different : x ≠ who) (n : String) (r : Attempt × LockTable) :
      (h.proceed x n r).stands who = h.stands who := by
    obtain ⟨attempt, t⟩ := r
    cases attempt <;> exact Function.update_of_ne different.symm ..
  cases step with
  | enter n timeout away => exact proceeded (mt (congrArg some) other) n _
  | await waits => exact proceeded (mt (congrArg some) other) _ _
  | drop holds => exact Function.update_of_ne (Ne.symm (mt (congrArg some) other)) ..
  | pass => rfl

theorem holder_step (sound : h.Sound) (step : Step h turn h')
    (held : (h.table.get name).holder = some who) (kept : turn ≠ .drop who name) :
    (h'.table.get name).holder = some who := by
  have requested (n : String) (x : Nat) : ((h.table.request n x).get name).holder = some who := by
    rw [LockTable.get_request]
    split
    · exact Lock.keeps_request held
    · exact held
  cases move_of_step sound step with
  | take | queue => exact requested _ _
  | refuse | giveUp =>
    rw [LockTable.get_withdraw]
    split <;> first | exact requested _ _ | exact held
  | serve | keep | pass => exact held
  | @drop x n holds =>
    rw [LockTable.get_release]
    split
    · rename_i same
      subst same
      obtain rfl := Option.some.inj ((sound.served n x holds).symm.trans held)
      exact absurd rfl kept
    · exact held

theorem alone_step (sound : h.Sound) (step : Step h turn h') (alone : h.Alone who name)
    (unrivalled : ∀ other timeout, other ≠ who → turn ≠ .enter other name timeout) :
    h'.Alone who name := by
  intro x d different waits
  cases move_of_step sound step with
  | queue away held patient =>
    obtain ⟨rfl, same⟩ | ⟨-, waits⟩ := update_cases waits
    · obtain ⟨rfl, -⟩ := Standing.waiting.inj same
      exact unrivalled x _ different rfl
    · exact alone x d different waits
  | take | refuse | serve | giveUp | drop =>
    obtain ⟨-, same⟩ | ⟨-, waits⟩ := update_cases waits
    · contradiction
    · exact alone x d different waits
  | keep | pass => exact alone x d different waits

theorem line_of_holder (sound : h.Sound) (held : (h.table.get name).holder = some who) {x : Nat}
    (behind : x ∈ (h.table.get name).line) : ∃ deadline, h.stands x = .waiting name deadline := by
  have whole : (h.table.get name).queue = who :: (h.table.get name).line := by
    rw [Lock.queue, held]
    rfl
  have once := (sound.orderly name).nodup
  rw [whole, List.nodup_cons] at once
  rcases sound.stands_of_mem (whole ▸ List.mem_cons_of_mem who behind) with holds | waits
  · obtain rfl := Option.some.inj (held.symm.trans (sound.served name x holds))
    exact absurd behind once.1
  · exact waits

theorem next_of_alone (sound : h.Sound) (alone : h.Alone who name) {deadline : Nat}
    (waits : h.stands who = .waiting name deadline) {other : Nat}
    (holds : h.stands other = .holding name) :
    (h.table.get name).release.holder = some who := by
  have held := sound.served name other holds
  have inside := (sound.queued name who).mpr (by rw [waits]; rfl)
  rw [Lock.queue, held] at inside
  obtain rfl | behind := List.mem_cons.mp inside
  · rw [waits] at holds
    contradiction
  rw [Lock.release]
  cases line : (h.table.get name).line with
  | nil =>
    replace behind : who ∈ (h.table.get name).line := behind
    rw [line] at behind
    contradiction
  | cons first rest =>
    obtain ⟨d, stood⟩ := line_of_holder sound held (line ▸ List.mem_cons_self)
    have only : first = who := Classical.byContradiction fun other => alone first d other stood
    exact congrArg some only

theorem dropped_of_holder (sound : h.Sound) (step : Step h turn h') (other : turn.who? ≠ some who)
    (before : (h.table.get name).holder ≠ some who)
    (after : (h'.table.get name).holder = some who) : ∃ x, turn = .drop x name := by
  have requested {n : String} {x : Nat} (different : x ≠ who) :
      ((h.table.request n x).get name).holder ≠ some who := by
    rw [LockTable.get_request]
    split
    · unfold Lock.request
      split
      · exact fun same => different (Option.some.inj same)
      · exact before
    · exact before
  cases move_of_step sound step with
  | take | queue => exact absurd after (requested (mt (congrArg some) other))
  | refuse | giveUp =>
    rw [LockTable.get_withdraw] at after
    split at after <;> first | exact absurd after (requested (mt (congrArg some) other)) | exact absurd after before
  | serve | keep | pass => exact absurd after before
  | @drop x n holds =>
    rw [LockTable.get_release] at after
    split at after
    · rename_i same
      exact ⟨x, same ▸ rfl⟩
    · exact absurd after before

end Steps

section Paths

theorem path_append {before after : List Turn} {middle : Hall} (path : Path h before middle)
    (path' : Path middle after h') : Path h (before ++ after) h' := by
  induction path with
  | nil => exact path'
  | cons first rest ih => exact .cons first (ih path')

theorem holder_path (sound : h.Sound) (path : Path h turns h')
    (held : (h.table.get name).holder = some who) (kept : .drop who name ∉ turns) :
    (h'.table.get name).holder = some who := by
  induction path with
  | nil => exact held
  | cons first rest ih =>
    rw [List.mem_cons, not_or] at kept
    exact ih (sound_step sound first) (holder_step sound first held (Ne.symm kept.1)) kept.2

theorem alone_path (sound : h.Sound) (path : Path h turns h') (alone : h.Alone who name)
    (unrivalled : Unrivalled who name turns) : h'.Alone who name := by
  induction path with
  | nil => exact alone
  | cons first rest ih =>
    refine ih (sound_step sound first) (alone_step sound first alone ?_) ?_
    · rintro x timeout different rfl
      exact unrivalled x timeout different List.mem_cons_self
    · intro x timeout different later
      exact unrivalled x timeout different (List.mem_cons_of_mem _ later)

theorem OnlyWaits.tail (only : OnlyWaits who (turn :: turns)) : OnlyWaits who turns :=
  fun later mem => only later (List.mem_cons_of_mem _ mem)

theorem OnlyWaits.not_drop (only : OnlyWaits who turns) : .drop who name ∉ turns :=
  fun mem => nomatch only _ mem rfl

theorem settled_path (path : Path h turns h') (only : OnlyWaits who turns)
    (settled : ∀ n deadline, h.stands who ≠ .waiting n deadline) :
    h'.stands who = h.stands who := by
  induction path with
  | nil => rfl
  | @cons h middle _ turn turns first rest ih =>
    have other : turn.who? ≠ some who := by
      intro own
      obtain rfl := only turn List.mem_cons_self own
      cases first with
      | await waits => exact settled _ _ waits
    have same := stands_step first other
    rw [ih only.tail (by simpa only [same] using settled), same]

theorem holds_of_holder (sound : h.Sound) (path : Path h turns h')
    (held : (h.table.get name).holder = some who) (only : OnlyWaits who turns)
    (ended : ∀ deadline, h'.stands who ≠ .waiting name deadline) :
    h'.stands who = .holding name := by
  have stays := holder_path sound path held only.not_drop
  obtain holds | ⟨deadline, waits⟩ := (sound_path sound path).stands_of_holder stays
  · exact holds
  · exact absurd waits (ended deadline)

theorem Handed.cons {middle : Hall} (first : Step h turn middle)
    (handed : Handed who name middle turns h') : Handed who name h (turn :: turns) h' := by
  obtain ⟨before, other, after, deadline, between, between', rfl, path, waits, drop, path'⟩ := handed
  exact ⟨turn :: before, other, after, deadline, between, between', rfl, .cons first path, waits,
    drop, path'⟩

/-- One who waits gets the lock because it is given back, or goes away without it. -/
theorem ending_of_waiting (sound : h.Sound) (path : Path h turns h') {deadline : Nat}
    (waits : h.stands who = .waiting name deadline)
    (unserved : (h.table.get name).holder ≠ some who) (only : OnlyWaits who turns)
    (ended : ∀ d, h'.stands who ≠ .waiting name d) :
    h'.stands who = .holding name ∧ Handed who name h turns h' ∨ h'.stands who = .away := by
  induction path with
  | nil => exact absurd waits (ended deadline)
  | @cons h middle last turn turns first rest ih =>
    -- `who` itself only looks in vain or gives up; it takes a drop by another to serve it.
    by_cases own : turn.who? = some who
    · obtain rfl := only turn List.mem_cons_self own
      cases move_of_step sound first with
      | serve waits' holds =>
        obtain ⟨rfl, -⟩ := Standing.waiting.inj (waits.symm.trans waits')
        exact absurd holds unserved
      | @giveUp _ n _ waits' unheld late =>
        have gone : (⟨h.table.withdraw n who, h.now,
            Function.update h.stands who .away⟩ : Hall).stands who = .away :=
          Function.update_self ..
        refine .inr ((settled_path rest only.tail ?_).trans gone)
        intro n d
        rw [gone]
        exact nofun
      | keep =>
        exact (ih sound waits unserved only.tail ended).imp_left (.imp_right (.cons first))
    · have waits' := (stands_step first own).trans waits
      by_cases served : (middle.table.get name).holder = some who
      · obtain ⟨other, rfl⟩ := dropped_of_holder sound first own unserved served
        refine .inl ⟨holds_of_holder (sound_step sound first) rest served only.tail ended, ?_⟩
        exact ⟨[], other, turns, deadline, h, middle, rfl, .nil h, waits, first, rest⟩
      · have later := ih (sound_step sound first) waits' served only.tail ended
        exact later.imp_left (.imp_right (.cons first))

theorem holds_of_handed (sound : h.Sound) (handed : Handed who name h turns h')
    (alone : h.Alone who name) (unrivalled : Unrivalled who name turns)
    (only : OnlyWaits who turns) (ended : ∀ d, h'.stands who ≠ .waiting name d) :
    h'.stands who = .holding name := by
  obtain ⟨before, other, after, deadline, middle, middle', rfl, path, waits, drop, path'⟩ := handed
  have sound_middle := sound_path sound path
  have alone_middle : middle.Alone who name := by
    refine alone_path sound path alone ?_
    intro x timeout different mem
    exact unrivalled x timeout different (List.mem_append_left _ mem)
  refine holds_of_holder (sound_step sound_middle drop) path' ?_ ?_ ended
  · cases drop with
    | drop holds =>
      rw [LockTable.get_release, if_pos rfl]
      exact next_of_alone sound_middle alone_middle waits holds
  · intro turn mem
    exact only turn (List.mem_append_right _ (List.mem_cons_of_mem _ mem))

def Patient (h : Hall) (who : Nat) (name : String) (deadline : Nat) : Prop :=
  h.stands who = .waiting name deadline ∨ h.stands who = .holding name ∨
    h.stands who = .away ∧ deadline ≤ h.now

theorem patient_enter {timeout : Nat} (sound : h.Sound)
    (step : Step h (.enter who name timeout) h') : h'.Patient who name (h.now + timeout) := by
  cases move_of_step sound step with
  | take => exact .inr (.inl (Function.update_self ..))
  | refuse => exact .inr (.inr ⟨Function.update_self .., Nat.le_refl _⟩)
  | queue => exact .inl (Function.update_self ..)

theorem now_step (sound : h.Sound) (step : Step h turn h') : h.now ≤ h'.now := by
  cases move_of_step sound step with
  | pass time => exact Nat.le_add_right _ _
  | _ => exact Nat.le_refl _

theorem patient_step {deadline : Nat} (sound : h.Sound) (step : Step h turn h')
    (patient : h.Patient who name deadline) (only : turn.who? = some who → turn = .await who) :
    h'.Patient who name deadline := by
  by_cases own : turn.who? = some who
  · obtain rfl := only own
    have waiting {n : String} {d : Nat} (waits : h.stands who = .waiting n d) :
        n = name ∧ d = deadline := by
      obtain still | holds | ⟨away, -⟩ := patient
      · exact Standing.waiting.inj (waits.symm.trans still)
      · rw [holds] at waits
        contradiction
      · rw [away] at waits
        contradiction
    cases move_of_step sound step with
    | serve waits =>
      obtain ⟨rfl, -⟩ := waiting waits
      exact .inr (.inl (Function.update_self ..))
    | giveUp waits unheld late =>
      obtain ⟨-, rfl⟩ := waiting waits
      exact .inr (.inr ⟨Function.update_self .., late⟩)
    | keep => exact patient
  · have same := stands_step step own
    unfold Patient
    rw [same]
    exact patient.imp_right (.imp_right (.imp_right (Nat.le_trans · (now_step sound step))))

theorem patient_path {deadline : Nat} (sound : h.Sound) (path : Path h turns h')
    (patient : h.Patient who name deadline) (only : OnlyWaits who turns) :
    h'.Patient who name deadline := by
  induction path with
  | nil => exact patient
  | cons first rest ih =>
    exact ih (sound_step sound first)
      (patient_step sound first patient (only _ List.mem_cons_self)) only.tail

end Paths

end Hall

end MatrixSession
