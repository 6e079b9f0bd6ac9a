import Mathlib.Algebra.Order.BigOperators.Group.List
import Mathlib.Algebra.Order.Group.Nat
import MatrixSession.Proofs.Lock.Lineup

/-!
A race that goes by its plan does so from one moment to the next, until everybody is through. At each
moment someone's alarm goes off, and whoever hears its alarm moves on; so the moments come to an end.
-/
namespace MatrixSession

namespace Race

def Phase.alarm : Phase → Option Nat
  | outside => some 0
  | waiting deadline => some deadline
  | holding _ leaveAt => some leaveAt
  | finished _ => none

def nextAlarm? (clock : Option Nat) (entries : List Entry) : Option Nat :=
  (entries.filterMap fun e => (phaseAt clock e).alarm).min?

def Phase.ahead : Phase → Nat
  | outside => 3
  | waiting _ => 2
  | holding .. => 1
  | finished _ => 0

variable {older : String → Option Nat} {waiters : List Waiter} {entries : List Entry} {e : Entry}
  {first now past : Nat} {clock : Option Nat} {s : State}

section Moments

theorem ending_le (mem : e ∈ plan older waiters) : ending e ≤ e.1.timeout := by
  obtain ⟨before, after, split⟩ := List.append_of_mem mem
  obtain ⟨-, turn⟩ := plan_split split
  obtain ⟨w, start⟩ := e
  cases start with
  | none => exact Nat.le_refl _
  | some t => exact (turn_eq_some.mp turn.symm).2.1

theorem due_planned {rest : List Entry} (split : plan older waiters = entries ++ e :: rest)
    (lined : Lined older first (standing clock (plan older waiters)) s.table)
    (early : ∀ name who, older name = some who → who < first) :
    due first s (clock.getD 0) entries.length e.1 (phaseAt clock e) = (phaseAt clock e).alarm := by
  cases clock with
  | none => rfl
  | some past =>
    by_cases waits : past < ending e
    · have member : e ∈ plan older waiters := split ▸ List.mem_append_right _ List.mem_cons_self
      obtain ⟨planned, turn⟩ := plan_split split
      have patient := ending_le member
      rw [split, standing, List.map_append, List.map_cons, phaseAt_waiting waits] at lined
      have holds := lined.holds_iff_turn planned early rfl (by omega)
      rw [phaseAt_waiting waits, due, if_neg, Phase.alarm]
      intro held
      obtain ⟨t, served, come⟩ := holds.mp held
      rw [ending, turn, served, Option.getD_some] at waits
      omega
    · rcases phaseAt_settled (Nat.le_of_not_lt waits) with ⟨t, -, -, phase⟩ | ⟨phase, -⟩
      · rw [phase]
        rfl
      · rw [phase]
        rfl

theorem nextMoment_planned (lined : Lined older first (standing clock (plan older waiters)) s.table)
    (early : ∀ name who, older name = some who → who < first) :
    (discipline first).nextMoment? s (clock.getD 0) (standing clock (plan older waiters)) =
      nextAlarm? clock (plan older waiters) := by
  have alarms : (standing clock (plan older waiters)).zipIdx.filterMap
      (fun a => (discipline first).due s (clock.getD 0) a.2 a.1) =
      (standing clock (plan older waiters)).zipIdx.filterMap
        ((fun a : Waiter × Phase => a.2.alarm) ∘ Prod.fst) := by
    apply List.filterMap_congr
    rintro ⟨agent, index⟩ mem
    have found := List.mk_mem_zipIdx_iff_getElem?.mp mem
    rw [standing, List.getElem?_map, Option.map_eq_some_iff] at found
    obtain ⟨e, found, rfl⟩ := found
    obtain ⟨bound, rfl⟩ := List.getElem?_eq_some_iff.mp found
    have split := (List.take_append_drop index (plan older waiters)).symm
    rw [List.drop_eq_getElem_cons bound] at split
    have due := due_planned split lined early
    rw [List.length_take_of_le (Nat.le_of_lt bound)] at due
    exact due
  unfold Discipline.nextMoment?
  rw [← List.filterMap_map, List.zipIdx_map_fst, standing, List.filterMap_map] at alarms
  exact congrArg List.min? alarms

theorem lt_alarm {d : Nat} (mem : e ∈ plan older waiters)
    (rings : (phaseAt (some past) e).alarm = some d) : past < d := by
  by_cases waits : past < ending e
  · have patient := ending_le mem
    rw [phaseAt_waiting waits] at rings
    obtain rfl := Option.some.inj rings
    omega
  · rcases phaseAt_settled (Nat.le_of_not_lt waits) with ⟨t, -, still, phase⟩ | ⟨phase, -⟩
    · rw [phase] at rings
      obtain rfl := Option.some.inj rings
      exact still
    · rw [phase] at rings
      contradiction

theorem exists_alarm (next : nextAlarm? clock (plan older waiters) = some now) :
    ∃ e ∈ plan older waiters, (phaseAt clock e).alarm = some now :=
  List.mem_filterMap.mp (List.min?_eq_some_iff.mp next).1

theorem le_alarm {d : Nat} (next : nextAlarm? clock (plan older waiters) = some now)
    (mem : e ∈ plan older waiters) (rings : (phaseAt clock e).alarm = some d) : now ≤ d :=
  (List.min?_eq_some_iff.mp next).2 d (List.mem_filterMap.mpr ⟨e, mem, rings⟩)

theorem le_ending (next : nextAlarm? (some past) (plan older waiters) = some now)
    (mem : e ∈ plan older waiters) (waits : past < ending e) : now ≤ ending e := by
  have alarm := le_alarm next mem (by rw [phaseAt_waiting waits]; rfl)
  cases served : e.2 with
  | none =>
    rw [ending, served]
    exact alarm
  | some t =>
    -- Someone in front still holds the lock, and leaves it at the turn of `e` at the latest.
    obtain ⟨before, after, split⟩ := List.append_of_mem mem
    obtain ⟨planned, turn⟩ := plan_split split
    obtain ⟨-, -, rfl⟩ := turn_eq_some.mp (turn.symm.trans served)
    rw [ending, served, Option.getD_some, planned] at waits
    obtain ⟨u, since, inFront, same, come, still⟩ := exists_holder waits
    have leaves := leaves_of_mem inFront same rfl
    rw [← planned] at leaves inFront
    have member : (u, some since) ∈ plan older waiters := split ▸ List.mem_append_left _ inFront
    have alarm := le_alarm next member (by rw [phaseAt_holding come still]; rfl)
    rw [ending, served]
    exact Nat.le_trans alarm leaves

theorem quiet_of_next (next : nextAlarm? clock (plan older waiters) = some now)
    (mem : e ∈ plan older waiters) : Quiet now e clock := by
  obtain ⟨v, member, rings⟩ := exists_alarm next
  cases clock with
  | none => exact (Option.some.inj rings).symm
  | some past =>
    refine ⟨lt_alarm member rings, ?_⟩
    rcases Nat.lt_or_ge past (ending e) with waits | settled
    · exact .inr (le_ending next mem waits)
    · exact .inl settled

end Moments

section Progress

theorem ahead_le_one (settled : ending e ≤ now) : (phaseAt (some now) e).ahead ≤ 1 := by
  rcases phaseAt_settled settled with ⟨t, -, -, phase⟩ | ⟨phase, -⟩
  · rw [phase]
    exact Nat.le_refl 1
  · rw [phase]
    exact Nat.zero_le 1

theorem ahead_le_two (now : Nat) (e : Entry) : (phaseAt (some now) e).ahead ≤ 2 := by
  by_cases waits : now < ending e
  · rw [phaseAt_waiting waits]
    exact Nat.le_refl 2
  · exact Nat.le_succ_of_le (ahead_le_one (Nat.le_of_not_lt waits))

theorem ahead_le (quiet : Quiet now e clock) :
    (phaseAt (some now) e).ahead ≤ (phaseAt clock e).ahead := by
  cases clock with
  | none => exact Nat.le_succ_of_le (ahead_le_two now e)
  | some past =>
    have later : past < now := quiet.1
    by_cases waits : past < ending e
    · rw [phaseAt_waiting waits]
      exact ahead_le_two now e
    · rcases phaseAt_settled (Nat.le_of_not_lt waits) with ⟨t, -, -, phase⟩ | ⟨phase, elapsed⟩
      · rw [phase]
        exact ahead_le_one (by omega)
      · rw [phase, phaseAt_finished (by omega)]
        intro t served
        exact Nat.le_trans (elapsed t served) (Nat.le_of_lt later)

theorem ahead_lt (mem : e ∈ plan older waiters) (rings : (phaseAt clock e).alarm = some now) :
    (phaseAt (some now) e).ahead < (phaseAt clock e).ahead := by
  cases clock with
  | none => exact Nat.lt_succ_of_le (ahead_le_two now e)
  | some past =>
    by_cases waits : past < ending e
    · have patient := ending_le mem
      rw [phaseAt_waiting waits] at rings ⊢
      obtain rfl := Option.some.inj rings
      exact Nat.lt_succ_of_le (ahead_le_one patient)
    · rcases phaseAt_settled (Nat.le_of_not_lt waits) with ⟨t, served, -, phase⟩ | ⟨phase, -⟩
      · rw [phase] at rings ⊢
        obtain rfl := Option.some.inj rings
        rw [phaseAt_finished]
        · exact Nat.zero_lt_one
        · rw [ending, served]
          exact Nat.le_add_right t _
        · intro u served'
          obtain rfl := Option.some.inj (served.symm.trans served')
          exact Nat.le_refl _
      · rw [phase] at rings
        contradiction

theorem finished_of_ahead {phase : Phase} (none_ahead : phase.ahead = 0) :
    ∃ start, phase = .finished start := by
  cases phase with
  | finished start => exact ⟨start, rfl⟩
  | outside | waiting | holding => contradiction

theorem finished_of_silent {phase : Phase} (silent : phase.alarm = none) :
    ∃ start, phase = .finished start := by
  cases phase with
  | finished start => exact ⟨start, rfl⟩
  | outside | waiting | holding => contradiction

end Progress

section Orders

def Sooner (entries : List Entry) (i j : Nat) : Prop :=
  ∃ v t w u, entries[i]? = some (v, some t) ∧ entries[j]? = some (w, some u) ∧
    (t < u ∨ t = u ∧ i < j)

structure Recorded (clock : Option Nat) (entries : List Entry) (order : List Nat) : Prop where
  sorted : order.Pairwise (Sooner entries)
  mem_iff : ∀ i, i ∈ order ↔
    ∃ w t past, entries[i]? = some (w, some t) ∧ clock = some past ∧ t ≤ past

theorem mem_entrants {i : Nat} :
    i ∈ entrants now 0 entries ↔ ∃ w, entries[i]? = some (w, some now) := by
  rw [entrants, List.mem_map]
  constructor
  · rintro ⟨⟨⟨w, start⟩, index⟩, mem, rfl⟩
    obtain ⟨listed, come⟩ := List.mem_filter.mp mem
    obtain rfl : start = some now := of_decide_eq_true come
    exact ⟨w, List.mk_mem_zipIdx_iff_getElem?.mp listed⟩
  · rintro ⟨w, found⟩
    refine ⟨((w, some now), i), ?_, rfl⟩
    rw [List.mem_filter]
    exact ⟨List.mk_mem_zipIdx_iff_getElem?.mpr found, decide_eq_true rfl⟩

theorem sorted_entrants (now : Nat) (entries : List Entry) :
    (entrants now 0 entries).Pairwise (· < ·) := by
  have part : (entrants now 0 entries).Sublist (entries.zipIdx.map (·.2)) :=
    List.filter_sublist.map _
  rw [List.zipIdx_map_snd] at part
  exact List.Pairwise.sublist part (List.pairwise_lt_range' ..)

theorem recorded_opening (entries : List Entry) : Recorded none entries [] := by
  constructor
  · exact List.Pairwise.nil
  · intro i
    constructor
    · intro mem
      contradiction
    · rintro ⟨w, t, past, -, unset, -⟩
      contradiction

theorem Recorded.extend {order : List Nat} (recorded : Recorded clock entries order)
    (quiet : ∀ e ∈ entries, Quiet now e clock) :
    Recorded (some now) entries (order ++ entrants now 0 entries) := by
  have fresh {i : Nat} {w : Waiter} {t : Nat} (found : entries[i]? = some (w, some t)) :
      t ≤ now ↔ (∃ past, clock = some past ∧ t ≤ past) ∨ t = now := by
    have waited := quiet _ (List.mem_of_getElem? found)
    cases clock with
    | none =>
      obtain rfl : now = 0 := waited
      simp
    | some past =>
      obtain ⟨later, between⟩ := waited
      simp only [ending, Option.getD_some] at between
      simp only [Option.some.injEq, exists_eq_left']
      omega
  have earlier {i : Nat} (mem : i ∈ order) :
      ∃ w t, entries[i]? = some (w, some t) ∧ t < now := by
    obtain ⟨w, t, past, found, rfl, come⟩ := (recorded.mem_iff i).mp mem
    exact ⟨w, t, found, Nat.lt_of_le_of_lt come (quiet _ (List.mem_of_getElem? found)).1⟩
  constructor
  · rw [List.pairwise_append]
    refine ⟨recorded.sorted, ?_, ?_⟩
    · apply (sorted_entrants now entries).imp_of_mem
      intro i j mem mem' before
      obtain ⟨v, found⟩ := mem_entrants.mp mem
      obtain ⟨w, found'⟩ := mem_entrants.mp mem'
      exact ⟨v, now, w, now, found, found', .inr ⟨rfl, before⟩⟩
    · intro i mem j mem'
      obtain ⟨v, t, found, before⟩ := earlier mem
      obtain ⟨w, found'⟩ := mem_entrants.mp mem'
      exact ⟨v, t, w, now, found, found', .inl before⟩
  · intro i
    rw [List.mem_append, recorded.mem_iff, mem_entrants]
    constructor
    · rintro (⟨w, t, past, found, set, come⟩ | ⟨w, found⟩)
      · exact ⟨w, t, now, found, rfl, (fresh found).mpr (.inl ⟨past, set, come⟩)⟩
      · exact ⟨w, now, now, found, rfl, Nat.le_refl now⟩
    · rintro ⟨w, t, _, found, ⟨⟩, come⟩
      rcases (fresh found).mp come with ⟨past, set, before⟩ | rfl
      · exact .inl ⟨w, t, past, found, set, before⟩
      · exact .inr ⟨w, found⟩

end Orders

section Runs

/-- However a race has come to a moment by its plan, it goes on by it to the end. -/
theorem run_planned (early : ∀ name who, older name = some who → who < first) (waiters : List Waiter)
    (fuel : Nat) :
    ∀ (clock : Option Nat) (s : State),
      Lined older first (standing clock (plan older waiters)) s.table →
      Recorded clock (plan older waiters) s.order →
      ((plan older waiters).map fun e => (phaseAt clock e).ahead).sum ≤ fuel →
      ∃ clock' s', (discipline first).run fuel (clock.getD 0) (standing clock (plan older waiters)) s =
          (standing clock' (plan older waiters), s') ∧
        Recorded clock' (plan older waiters) s'.order ∧
        ∀ e ∈ plan older waiters, ∃ start, phaseAt clock' e = .finished start := by
  induction fuel with
  | zero =>
    intro clock s _ recorded enough
    refine ⟨clock, s, rfl, recorded, ?_⟩
    intro e mem
    have none_ahead := List.sum_eq_zero_iff.mp (Nat.le_zero.mp enough)
    exact finished_of_ahead (none_ahead _ (List.mem_map_of_mem mem))
  | succ fuel ih =>
    intro clock s lined recorded enough
    unfold Discipline.run
    rw [nextMoment_planned lined early]
    cases next : nextAlarm? clock (plan older waiters) with
    | none =>
      refine ⟨clock, s, rfl, recorded, ?_⟩
      rw [nextAlarm?, List.min?_eq_none_iff, List.filterMap_eq_nil_iff] at next
      exact fun e mem => finished_of_silent (next e mem)
    | some now =>
      have quiet : ∀ e ∈ plan older waiters, Quiet now e clock := fun e => quiet_of_next next
      obtain ⟨v, member, rings⟩ := exists_alarm next
      have later : max (clock.getD 0) now = now := by
        apply Nat.max_eq_right
        cases clock with
        | none => exact Nat.zero_le now
        | some past => exact Nat.le_of_lt (quiet v member).1
      obtain ⟨table, passed, lined'⟩ :=
        pass_planned early now clock waiters (plan older waiters) [] s rfl quiet lined
      have less := List.sum_lt_sum (fun e => (phaseAt (some now) e).ahead)
        (fun e => (phaseAt clock e).ahead) (fun e mem => ahead_le (quiet e mem))
        ⟨v, member, ahead_lt member rings⟩
      rw [List.length_nil] at passed
      dsimp only
      rw [later, passed]
      exact ih (some now) _ lined' (recorded.extend quiet) (by omega)

theorem of_finished {start : Option Nat} (phase : phaseAt clock e = .finished start) :
    start = e.2 ∧ ∀ t, e.2 = some t → ∃ past, clock = some past ∧ t ≤ past := by
  cases clock with
  | none => contradiction
  | some past =>
    have settled : ending e ≤ past := by
      apply Nat.le_of_not_lt
      intro waits
      rw [phaseAt_waiting waits] at phase
      contradiction
    rcases phaseAt_settled settled with ⟨t, -, -, holds⟩ | ⟨finished, elapsed⟩
    · rw [holds] at phase
      contradiction
    · rw [finished] at phase
      refine ⟨(Phase.finished.inj phase).symm, ?_⟩
      intro t served
      exact ⟨past, rfl, Nat.le_trans (Nat.le_add_right t _) (elapsed t served)⟩

end Runs

end Race

end MatrixSession
