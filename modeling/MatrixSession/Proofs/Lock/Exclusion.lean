import MatrixSession.Proofs.Lock.Absence

/-!
Mutual exclusion of named locks, over every way in which attempts and guards can follow each other.
-/
namespace MatrixSession

namespace Hall

variable {h h' : Hall} {turn : Turn} {turns : List Turn} {who : Nat} {name : String}

section Lone

theorem free_of_alone (sound : h.Sound) (alone : h.Alone who name) (away : h.stands who = .away)
    (unheld : ∀ x, h.stands x ≠ .holding name) : (h.table.get name).holder = none := by
  cases held : (h.table.get name).holder with
  | none => rfl
  | some other =>
    obtain holds | ⟨deadline, waits⟩ := sound.stands_of_holder held
    · exact absurd holds (unheld other)
    · refine absurd waits (alone other deadline ?_)
      rintro rfl
      rw [away] at waits
      contradiction

theorem holder_take {timeout : Nat} (sound : h.Sound) (step : Step h (.enter who name timeout) h')
    (free : (h.table.get name).holder = none) :
    (h'.table.get name).holder = some who ∧ h'.stands who = .holding name := by
  cases move_of_step sound step with
  | take =>
    refine ⟨?_, Function.update_self ..⟩
    dsimp only
    rw [LockTable.get_request, if_pos rfl, Lock.request, free]
    rfl
  | refuse away held | queue away held =>
    rw [free] at held
    contradiction

theorem lone_attempt {timeout : Nat} {middle : Hall} (sound : h.Sound)
    (step : Step h (.enter who name timeout) middle) (path : Path middle turns h')
    (only : OnlyWaits who turns) (alone : h.Alone who name) (unrivalled : Unrivalled who name turns)
    (ended : ∀ deadline, h'.stands who ≠ .waiting name deadline) :
    h'.stands who = .holding name ↔
      (∀ x, h.stands x ≠ .holding name) ∨ Handed who name middle turns h' := by
  have sound' := sound_step sound step
  have away : h.stands who = .away := by
    cases step with
    | enter _ _ away => exact away
  constructor
  · intro holds
    cases move_of_step sound step with
    | take timeout away free =>
      refine .inl fun x held => ?_
      rw [sound.served name x held] at free
      contradiction
    | refuse away held =>
      have gone : Function.update h.stands who .away who = .away := Function.update_self ..
      have stays := settled_path path only (by
        intro n deadline
        dsimp only
        rw [gone]
        exact nofun)
      rw [stays.trans gone] at holds
      contradiction
    | @queue _ other _ _ away held =>
      have unserved : ((h.table.request name who).get name).holder ≠ some who := by
        rw [LockTable.get_request, if_pos rfl, Lock.keeps_request held]
        intro same
        obtain rfl := Option.some.inj same
        exact sound.absent away name (holder_mem held)
      obtain ⟨-, handed⟩ | gone :=
        ending_of_waiting sound' path (Function.update_self ..) unserved only ended
      · exact .inr handed
      · rw [gone] at holds
        contradiction
  · rintro (unheld | handed)
    · have taken := (holder_take sound step (free_of_alone sound alone away unheld)).1
      exact holds_of_holder sound' path taken only ended
    · refine holds_of_handed sound' handed ?_ unrivalled only ended
      exact alone_step sound step alone (by rintro x timeout' different ⟨⟩; exact different rfl)

end Lone

section Drops

theorem free_step (sound : h.Sound) (step : Step h turn h')
    (free : (h.table.get name).holder = none) (unasked : ∀ x timeout, turn ≠ .enter x name timeout) :
    (h'.table.get name).holder = none := by
  cases move_of_step sound step with
  | @take x n timeout | @queue x _ n timeout =>
    have different : n ≠ name := fun same => unasked x timeout (same ▸ rfl)
    dsimp only
    rw [LockTable.get_request, if_neg different]
    exact free
  | @refuse x _ n =>
    have different : n ≠ name := fun same => unasked x 0 (same ▸ rfl)
    dsimp only
    rw [LockTable.get_withdraw, if_neg different, LockTable.get_request, if_neg different]
    exact free
  | giveUp =>
    rw [LockTable.get_withdraw]
    split <;> exact free
  | serve | keep | pass => exact free
  | @drop x n holds =>
    have different : n ≠ name := by
      rintro rfl
      rw [sound.served n x holds] at free
      contradiction
    dsimp only
    rw [LockTable.get_release, if_neg different]
    exact free

theorem free_path (sound : h.Sound) (path : Path h turns h')
    (free : (h.table.get name).holder = none) (unasked : ∀ x timeout, .enter x name timeout ∉ turns) :
    (h'.table.get name).holder = none := by
  induction path with
  | nil => exact free
  | cons first rest ih =>
    refine ih (sound_step sound first) (free_step sound first free ?_) ?_
    · rintro x timeout rfl
      exact unasked x timeout List.mem_cons_self
    · exact fun x timeout later => unasked x timeout (List.mem_cons_of_mem _ later)

theorem drop_own (sound : h.Sound) (step : Step h (.drop who name) h') :
    h'.stands who = .away ∧ (∀ n, n ≠ name → h'.table.get n = h.table.get n) ∧
      ∀ x, h'.stands x ≠ .holding name := by
  cases step with
  | drop holds =>
    refine ⟨Function.update_self .., fun n different => ?_, fun x held => ?_⟩
    · exact (LockTable.get_release ..).trans (if_neg different.symm)
    · obtain ⟨-, gone⟩ | ⟨other, held⟩ := update_cases held
      · contradiction
      · exact other (sound.exclusive held holds)

theorem free_drop (sound : h.Sound) (step : Step h (.drop who name) h')
    (unwanted : ∀ x deadline, h.stands x ≠ .waiting name deadline) :
    (h'.table.get name).holder = none := by
  cases step with
  | drop holds =>
    dsimp only
    rw [LockTable.get_release, if_pos rfl, Lock.release]
    cases line : (h.table.get name).line with
    | nil => rfl
    | cons first rest =>
      obtain ⟨deadline, waits⟩ :=
        line_of_holder sound (sound.served name who holds) (line ▸ List.mem_cons_self)
      exact absurd waits (unwanted first deadline)

theorem holder_drop (step : Step h (.drop who name) h') {first : Nat}
    (next : (h.table.get name).line.head? = some first) :
    (h'.table.get name).holder = some first := by
  cases step with
  | drop =>
    dsimp only
    rw [LockTable.get_release, if_pos rfl]
    exact next

theorem served_await (sound : h.Sound) (step : Step h (.await who) h')
    (held : (h.table.get name).holder = some who) : h'.stands who = .holding name := by
  have waits : ∃ n deadline, h.stands who = .waiting n deadline := by
    cases step with
    | @await _ n deadline waits => exact ⟨n, deadline, waits⟩
  obtain ⟨n, deadline, waits⟩ := waits
  have same : n = name := by
    obtain holds | ⟨d, stood⟩ := sound.stands_of_holder held
    · rw [holds] at waits
      contradiction
    · exact (Standing.waiting.inj (waits.symm.trans stood)).1
  subst same
  cases move_of_step sound step with
  | serve waits' holds =>
    obtain ⟨rfl, -⟩ := Standing.waiting.inj (waits.symm.trans waits')
    exact Function.update_self ..
  | giveUp waits' unheld | keep waits' unheld =>
    obtain ⟨rfl, -⟩ := Standing.waiting.inj (waits.symm.trans waits')
    exact absurd held unheld

end Drops

theorem ended_await {deadline : Nat} (sound : h.Sound) (waits : h.stands who = .waiting name deadline)
    (step : Step h (.await who) h') (late : h.now = deadline) :
    h'.stands who = .holding name ∨ h'.stands who = .away := by
  cases move_of_step sound step with
  | serve waits' =>
    obtain ⟨rfl, -⟩ := Standing.waiting.inj (waits.symm.trans waits')
    exact .inl (Function.update_self ..)
  | giveUp => exact .inr (Function.update_self ..)
  | keep waits' unheld early =>
    obtain ⟨-, rfl⟩ := Standing.waiting.inj (waits.symm.trans waits')
    omega

/-- What the locks of a hall keep to, whatever comes next. -/
structure Exclusive (h : Hall) : Prop where
  /-- Two guards of one lock are never held at the same time. -/
  single : ∀ name x y, h.stands x = .holding name → h.stands y = .holding name → x = y
  /-- An attempt waits until it has the lock or its time is up, and no longer. -/
  bounded : ∀ who name timeout middle turns h', Step h (.enter who name timeout) middle →
    Path middle turns h' → OnlyWaits who turns →
      h'.Patient who name (h.now + timeout) ∧
      ∀ deadline, h'.stands who = .waiting name deadline → h'.now ≤ deadline ∧
        ∃ last, Step h' (.await who) last ∧
          (h'.now = deadline → last.stands who = .holding name ∨ last.stands who = .away)
  /-- An attempt without rivals that is over has the lock, just if there was no guard of it or one
      was dropped in the meantime. -/
  lone : ∀ who name timeout middle turns h', Step h (.enter who name timeout) middle →
    Path middle turns h' → OnlyWaits who turns → h.Alone who name → Unrivalled who name turns →
    (∀ deadline, h'.stands who ≠ .waiting name deadline) →
      (h'.stands who = .holding name ↔
        (∀ x, h.stands x ≠ .holding name) ∨ Handed who name middle turns h')
  /-- An attempt that timed out leaves all the others as they would be without it. -/
  traceless : ∀ who name timeout middle turns h', Step h (.enter who name timeout) middle →
    Path middle turns h' → OnlyWaits who turns → h'.stands who = .away →
      (∀ n, who ∉ (h'.table.get n).queue) ∧
      ∃ g, Path h (turns.filter (·.who? ≠ some who)) g ∧ h'.Same g
  /-- A guard that is dropped frees its own lock, and only that. -/
  freed : ∀ who name h', Step h (.drop who name) h' →
    h'.stands who = .away ∧ (∀ x, x ≠ who → h'.stands x = h.stands x) ∧
      (∀ n, n ≠ name → h'.table.get n = h.table.get n) ∧ ∀ x, h'.stands x ≠ .holding name
  /-- The next attempt gets a lock that was dropped and that nobody waits for. -/
  next : ∀ who name h' turns middle x timeout last, Step h (.drop who name) h' →
    (∀ x deadline, h.stands x ≠ .waiting name deadline) → Path h' turns middle →
    (∀ x timeout, .enter x name timeout ∉ turns) → Step middle (.enter x name timeout) last →
      last.stands x = .holding name
  /-- If there is a line for a lock that is dropped, the first in line gets it. -/
  first : ∀ who name h' turns middle x last, Step h (.drop who name) h' →
    (h.table.get name).line.head? = some x → Path h' turns middle →
    (∀ turn ∈ turns, turn.who? ≠ some x) → Step middle (.await x) last →
      last.stands x = .holding name
  /-- A guard is held until it is dropped, and nobody else gets its lock until then. -/
  kept : ∀ who name turns h', h.stands who = .holding name → Path h turns h' →
    .drop who name ∉ turns →
      h'.stands who = .holding name ∧ ∀ x, h'.stands x = .holding name → x = who
  /-- Whoever asks for a lock while its guard is held, its holder too, does so in vain. -/
  vain : ∀ who name x timeout middle turns h', h.stands who = .holding name →
    Step h (.enter x name timeout) middle → Path middle turns h' → .drop who name ∉ turns →
    OnlyWaits x turns → (∀ deadline, h'.stands x ≠ .waiting name deadline) →
      h'.stands x = .away ∧ h'.stands who = .holding name

theorem holds_path (sound : h.Sound) (path : Path h turns h') (holds : h.stands who = .holding name)
    (kept : .drop who name ∉ turns) : h'.stands who = .holding name := by
  induction path with
  | nil => exact holds
  | @cons h middle last turn turns first rest ih =>
    rw [List.mem_cons, not_or] at kept
    refine ih (sound_step sound first) ?_ kept.2
    by_cases own : turn.who? = some who
    · cases first with
      | enter _ _ away =>
        obtain rfl := Option.some.inj own
        rw [away] at holds
        contradiction
      | await waits =>
        obtain rfl := Option.some.inj own
        rw [waits] at holds
        contradiction
      | drop holds' =>
        obtain rfl := Option.some.inj own
        obtain rfl := Standing.holding.inj (holds.symm.trans holds')
        exact absurd rfl kept.1
      | pass => contradiction
    · exact (stands_step first own).trans holds

theorem Sound.exclusion (sound : h.Sound) : h.Exclusive := by
  constructor
  case single => exact fun name x y => sound.exclusive
  case bounded =>
    intro who name timeout middle turns h' step path only
    have sound' := sound_step sound step
    refine ⟨patient_path sound' path (patient_enter sound step) only, fun deadline waits => ?_⟩
    refine ⟨(sound_path sound' path).punctual who name deadline waits, _, .await waits, ?_⟩
    exact ended_await (sound_path sound' path) waits (.await waits)
  case lone =>
    intro who name timeout middle turns h' step path only alone unrivalled ended
    exact lone_attempt sound step path only alone unrivalled ended
  case traceless =>
    intro who name timeout middle turns h' step path only gone
    refine ⟨?_, trace_of_attempt sound step path only gone⟩
    exact (sound_path (sound_step sound step) path).absent gone
  case freed =>
    intro who name h' step
    obtain ⟨away, others, unheld⟩ := drop_own sound step
    refine ⟨away, fun x different => stands_step step ?_, others, unheld⟩
    exact fun same => different (Option.some.inj same).symm
  case next =>
    intro who name h' turns middle x timeout last step unwanted path unasked asks
    have sound' := sound_step sound step
    have free := free_path sound' path (free_drop sound step unwanted) unasked
    exact (holder_take (sound_path sound' path) asks free).2
  case first =>
    intro who name h' turns middle x last step next path others looks
    have sound' := sound_step sound step
    have kept : .drop x name ∉ turns := fun mem => others _ mem rfl
    have held := holder_path sound' path (holder_drop step next) kept
    exact served_await (sound_path sound' path) looks held
  case kept =>
    intro who name turns h' holds path kept
    have stays := holds_path sound path holds kept
    exact ⟨stays, fun x holds' => (sound_path sound path).exclusive holds' stays⟩
  case vain =>
    intro who name x timeout middle turns h' holds step path kept only ended
    have sound' := sound_step sound step
    have stays := holds_path sound (.cons step path) holds (by simpa using kept)
    refine ⟨?_, stays⟩
    obtain waits | holds' | ⟨away, -⟩ := patient_path sound' path (patient_enter sound step) only
    · exact absurd waits (ended _)
    · obtain rfl := (sound_path sound' path).exclusive holds' stays
      cases step with
      | enter _ _ away =>
        rw [away] at holds
        contradiction
    · exact away

/-- However attempts and guards follow each other, the locks keep out whoever has to stay out, and
    let in whoever may come in. -/
theorem exclusive_of_path (path : Path opening turns h) : h.Exclusive :=
  (sound_path sound_opening path).exclusion

theorem exclusive_after_handing : ∃ h, Path opening
    [.enter 0 "door" 5, .enter 1 "door" 5, .pass 5, .drop 0 "door", .await 1] h ∧
      h.stands 1 = .holding "door" ∧ h.Exclusive := by
  have punctual (who : Nat) (name : String) (deadline : Nat)
      (waits : Function.update (Function.update opening.stands 0 (.holding "door")) 1
        (.waiting "door" 5) who = .waiting name deadline) : 0 + 5 ≤ deadline := by
    obtain ⟨-, same⟩ | ⟨-, waits⟩ := update_cases waits
    · obtain ⟨-, rfl⟩ := Standing.waiting.inj same
      exact Nat.le_refl 5
    · obtain ⟨-, same⟩ | ⟨-, waits⟩ := update_cases waits <;> contradiction
  have path : Path opening
    [.enter 0 "door" 5, .enter 1 "door" 5, .pass 5, .drop 0 "door", .await 1] _ :=
    .cons (.enter "door" 5 rfl) (.cons (.enter "door" 5 rfl) (.cons (.pass 5 punctual)
      (.cons (.drop rfl) (.cons (.await rfl) (.nil _)))))
  exact ⟨_, path, rfl, exclusive_of_path path⟩

end Hall

end MatrixSession
