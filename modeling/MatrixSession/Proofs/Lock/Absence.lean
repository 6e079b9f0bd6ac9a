import MatrixSession.Proofs.Lock.Waiting

/-!
An attempt that ends without its lock leaves no trace: had it never been made, all the others could
have done the same, with the same locks and standings in the end.
-/
namespace MatrixSession

namespace Lock

variable {l : Lock} {who other : Nat}

theorem withdraw_absent (outside : who ∉ l.queue) : l.withdraw who = l := by
  have absent : ∀ x ∈ l.line, x ≠ who := by
    rintro x inside rfl
    exact outside (List.mem_append_right _ inside)
  have kept : l.line.filter (· ≠ who) = l.line := List.filter_eq_self.mpr (by simpa using absent)
  rw [withdraw, kept]

theorem withdraw_withdraw (l : Lock) (who other : Nat) :
    (l.withdraw who).withdraw other = (l.withdraw other).withdraw who := by
  simp only [withdraw, List.filter_filter, Bool.and_comm]

theorem withdraw_idem (l : Lock) (who : Nat) : (l.withdraw who).withdraw who = l.withdraw who := by
  simp only [withdraw, List.filter_filter, Bool.and_self]

theorem request_withdraw (l : Lock) (different : other ≠ who) :
    (l.withdraw who).request other = (l.request other).withdraw who := by
  obtain ⟨holder, line⟩ := l
  cases holder <;> simp [request, withdraw, different]

theorem release_withdraw (unserved : l.release.holder ≠ some who) :
    (l.withdraw who).release = l.release.withdraw who := by
  obtain ⟨holder, line⟩ := l
  cases line with
  | nil => rfl
  | cons first rest =>
    have different : first ≠ who := fun same => unserved (congrArg some same)
    simp [release, withdraw, different]

end Lock

namespace Hall

variable {h h' g g' : Hall} {turn : Turn} {turns : List Turn} {who : Nat} {name : String}

/-- The same hall, where `who` is away and in no line. -/
structure Without (who : Nat) (h g : Hall) : Prop where
  now : g.now = h.now
  stands : g.stands = Function.update h.stands who .away
  locks : ∀ n, g.table.get n = (h.table.get n).withdraw who

namespace Without

theorem stands_other (without : Without who h g) {x : Nat} (other : x ≠ who) :
    g.stands x = h.stands x := by
  rw [without.stands]
  exact Function.update_of_ne other ..

theorem holds_iff {t u : LockTable} (locks : ∀ n, u.get n = (t.get n).withdraw who) (n : String)
    (x : Nat) : u.Holds n x ↔ t.Holds n x := by
  rw [LockTable.Holds, locks]
  exact Iff.rfl

theorem locks_request {t u : LockTable} (locks : ∀ n, u.get n = (t.get n).withdraw who)
    {x : Nat} (other : x ≠ who) (name n : String) :
    (u.request name x).get n = ((t.request name x).get n).withdraw who := by
  rw [LockTable.get_request, LockTable.get_request, locks]
  split
  · exact Lock.request_withdraw _ other
  · rfl

theorem locks_withdraw {t u : LockTable} (locks : ∀ n, u.get n = (t.get n).withdraw who)
    (x : Nat) (name n : String) :
    (u.withdraw name x).get n = ((t.withdraw name x).get n).withdraw who := by
  rw [LockTable.get_withdraw, LockTable.get_withdraw, locks]
  split
  · exact Lock.withdraw_withdraw _ _ _
  · rfl

theorem update (without : Without who h g) {t u : LockTable}
    (locks : ∀ n, u.get n = (t.get n).withdraw who) {x : Nat} (other : x ≠ who)
    (standing : Standing) :
    Without who ⟨t, h.now, Function.update h.stands x standing⟩
      ⟨u, g.now, Function.update g.stands x standing⟩ := by
  refine ⟨without.now, ?_, locks⟩
  dsimp only
  rw [without.stands, Function.update_comm other]

theorem step (without : Without who h g) (step : Step h turn h')
    (other : turn.who? ≠ some who) (unserved : ∀ n, (h'.table.get n).holder ≠ some who) :
    ∃ g', Step g turn g' ∧ Without who h' g' := by
  cases step with
  | @enter x name timeout away =>
    have different := mt (congrArg some) other
    refine ⟨_, .enter name timeout ((without.stands_other different).trans away), ?_⟩
    have asked := locks_request without.locks different name
    unfold LockTable.enter
    simp only [holds_iff asked, without.now]
    split
    · exact without.update asked different _
    · split
      · exact without.update (locks_withdraw asked x name) different _
      · exact without.update asked different _
  | @await x name deadline waits =>
    have different := mt (congrArg some) other
    refine ⟨_, .await ((without.stands_other different).trans waits), ?_⟩
    unfold LockTable.await
    simp only [holds_iff without.locks, without.now]
    split
    · exact without.update without.locks different _
    · split
      · exact without.update (locks_withdraw without.locks x name) different _
      · exact without.update without.locks different _
  | @drop x name holds =>
    have different := mt (congrArg some) other
    refine ⟨_, .drop ((without.stands_other different).trans holds), ?_⟩
    refine without.update (fun n => ?_) different _
    have unserved := unserved n
    dsimp only at unserved
    rw [LockTable.get_release] at unserved
    rw [LockTable.get_release, LockTable.get_release, without.locks]
    split
    · rename_i same
      rw [if_pos same] at unserved
      exact Lock.release_withdraw unserved
    · rfl
  | pass time punctual =>
    refine ⟨_, .pass time ?_, ?_⟩
    · intro x name deadline waits
      rw [without.now]
      rw [without.stands] at waits
      obtain ⟨-, gone⟩ | ⟨-, waits⟩ := update_cases waits
      · contradiction
      · exact punctual x name deadline waits
    · exact ⟨congrArg (· + time) without.now, without.stands, without.locks⟩

theorem await (sound : h.Sound) (without : Without who h g) (step : Step h (.await who) h')
    (unserved : ∀ n, (h'.table.get n).holder ≠ some who) : Without who h' g := by
  cases move_of_step sound step with
  | @serve _ name _ waits holds => exact absurd holds (unserved name)
  | giveUp waits unheld late =>
    refine ⟨without.now, ?_, fun n => ?_⟩
    · rw [without.stands, Function.update_idem]
    · rw [without.locks, LockTable.get_withdraw]
      split
      · exact (Lock.withdraw_idem _ _).symm
      · rfl
  | keep => exact without

theorem path (sound : h.Sound) (without : Without who h g) (path : Path h turns h')
    (only : OnlyWaits who turns) (gone : h'.stands who = .away) :
    ∃ g', Path g (turns.filter (·.who? ≠ some who)) g' ∧ Without who h' g' := by
  induction path generalizing g with
  | nil => exact ⟨g, .nil g, without⟩
  | @cons h middle last turn turns first rest ih =>
    have sound' := sound_step sound first
    -- A lock that came to `who` on the way would be held in the end.
    have unserved (n : String) : (middle.table.get n).holder ≠ some who := by
      intro held
      have holds := holds_of_holder sound' rest held only.tail (by simp [gone])
      rw [gone] at holds
      contradiction
    by_cases own : turn.who? = some who
    · obtain rfl := only turn List.mem_cons_self own
      obtain ⟨g', path', without'⟩ := ih sound' (without.await sound first unserved) only.tail gone
      exact ⟨g', by simpa [Turn.who?] using path', without'⟩
    · obtain ⟨between, step', without'⟩ := without.step first own unserved
      obtain ⟨g', path', without''⟩ := ih sound' without' only.tail gone
      refine ⟨g', ?_, without''⟩
      rw [List.filter_cons_of_pos (by simpa using own)]
      exact .cons step' path'

end Without

theorem without_enter (sound : h.Sound) {timeout : Nat} (step : Step h (.enter who name timeout) h')
    (unserved : ∀ n, (h'.table.get n).holder ≠ some who) : Without who h' h := by
  have there (standing : Standing) (away : h.stands who = .away) :
      h.stands = Function.update (Function.update h.stands who standing) who .away := by
    rw [Function.update_idem, ← away, Function.update_eq_self]
  have left (away : h.stands who = .away) {other : Nat}
      (held : (h.table.get name).holder = some other) (n : String) :
      h.table.get n = ((h.table.request name who).get n).withdraw who := by
    rw [LockTable.get_request]
    split
    · rename_i same
      subst same
      exact (Lock.withdraw_request held (sound.absent away name)).symm
    · exact (Lock.withdraw_absent (sound.absent away n)).symm
  cases move_of_step sound step with
  | take timeout away free =>
    refine absurd ?_ (unserved name)
    dsimp only
    rw [LockTable.get_request, if_pos rfl, Lock.request, free]
    rfl
  | refuse away held =>
    refine ⟨rfl, there _ away, fun n => ?_⟩
    dsimp only
    rw [LockTable.get_withdraw]
    split
    · rw [Lock.withdraw_idem]
      exact left away held n
    · exact left away held n
  | queue away held patient => exact ⟨rfl, there _ away, left away held⟩

structure Same (h g : Hall) : Prop where
  now : g.now = h.now
  stands : g.stands = h.stands
  locks : ∀ n, g.table.get n = h.table.get n

/-- An attempt that timed out might as well not have been made. -/
theorem trace_of_attempt (sound : h.Sound) {timeout : Nat} {middle : Hall}
    (step : Step h (.enter who name timeout) middle) (path : Path middle turns h')
    (only : OnlyWaits who turns) (gone : h'.stands who = .away) :
    ∃ g, Path h (turns.filter (·.who? ≠ some who)) g ∧ h'.Same g := by
  have sound_middle := sound_step sound step
  have unserved (n : String) : (middle.table.get n).holder ≠ some who := by
    intro held
    have holds := holds_of_holder sound_middle path held only (by simp [gone])
    rw [gone] at holds
    contradiction
  obtain ⟨g, path', without⟩ := (without_enter sound step unserved).path sound_middle path only gone
  refine ⟨g, path', without.now, ?_, ?_⟩
  · rw [without.stands, ← gone, Function.update_eq_self]
  · intro n
    rw [without.locks]
    exact Lock.withdraw_absent ((sound_path sound_middle path).absent gone n)

end Hall

end MatrixSession
