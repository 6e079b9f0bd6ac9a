import Mathlib.Algebra.GroupWithZero.Nat
import Mathlib.Data.List.Induction
import MatrixSession.Race

/-!
The plan of a race. A waiter gets its lock at the moment at which those who came before it are through
with it, unless its time is up by then or an older guard holds the lock. What the plan says about one
lock depends on nobody who asks for another.
-/
namespace MatrixSession.Race

abbrev Entry := Waiter × Option Nat

def spent (name : String) (entries : List Entry) : Nat :=
  ((entries.filter fun e => e.1.name = name ∧ e.2.isSome).map (·.1.hold)).sum

def turn? (older : String → Option Nat) (entries : List Entry) (w : Waiter) : Option Nat :=
  if older w.name = none ∧ spent w.name entries ≤ w.timeout then some (spent w.name entries)
  else none

/-- The plan of a race; `older` tells the guards of locks that are held throughout. -/
def plan (older : String → Option Nat) (waiters : List Waiter) : List Entry :=
  waiters.foldl (fun entries w => entries ++ [(w, turn? older entries w)]) []

variable {older : String → Option Nat} {waiters : List Waiter} {entries : List Entry} {w : Waiter}
  {name : String} {now t : Nat}

section Plans

theorem plan_snoc (older : String → Option Nat) (waiters : List Waiter) (w : Waiter) :
    plan older (waiters ++ [w]) = plan older waiters ++ [(w, turn? older (plan older waiters) w)] := by
  simp [plan, List.foldl_append]

theorem spent_append (name : String) (before after : List Entry) :
    spent name (before ++ after) = spent name before + spent name after := by
  unfold spent
  rw [List.filter_append, List.map_append, List.sum_append]

theorem spent_snoc (name : String) (entries : List Entry) (e : Entry) :
    spent name (entries ++ [e]) =
      spent name entries + if e.1.name = name ∧ e.2.isSome then e.1.hold else 0 := by
  rw [spent_append]
  unfold spent
  by_cases counts : e.1.name = name ∧ e.2.isSome
  · simp [counts]
  · simp [counts]

theorem turn_eq_some : turn? older entries w = some t ↔
    older w.name = none ∧ t ≤ w.timeout ∧ t = spent w.name entries := by
  unfold turn?
  split
  · rename_i served
    rw [Option.some.injEq]
    constructor
    · rintro rfl
      exact ⟨served.1, served.2, rfl⟩
    · rintro ⟨-, -, rfl⟩
      rfl
  · rename_i refused
    constructor
    · exact nofun
    · rintro ⟨open', soon, rfl⟩
      exact absurd ⟨open', soon⟩ refused

theorem late_of_none (free : older w.name = none) (refused : turn? older entries w = none) :
    w.timeout < spent w.name entries := by
  apply Nat.lt_of_not_le
  intro soon
  have served := turn_eq_some.mpr ⟨free, soon, rfl⟩
  rw [refused] at served
  contradiction

theorem map_plan (older : String → Option Nat) (waiters : List Waiter) :
    (plan older waiters).map (·.1) = waiters := by
  induction waiters using List.reverseRecOn with
  | nil => rfl
  | append_singleton waiters w ih => rw [plan_snoc, List.map_append, ih]; rfl

theorem plan_append (older : String → Option Nat) (front back : List Waiter) :
    ∃ more, plan older (front ++ back) = plan older front ++ more := by
  induction back using List.reverseRecOn with
  | nil => exact ⟨[], by simp⟩
  | append_singleton back w ih =>
    obtain ⟨more, same⟩ := ih
    refine ⟨more ++ [(w, turn? older (plan older (front ++ back)) w)], ?_⟩
    rw [← List.append_assoc, plan_snoc, same, List.append_assoc]

theorem getElem?_plan (older : String → Option Nat) (front back : List Waiter) (w : Waiter) :
    (plan older (front ++ w :: back))[front.length]? = some (w, turn? older (plan older front) w) := by
  have length := congrArg List.length (map_plan older front)
  rw [List.length_map] at length
  obtain ⟨more, same⟩ := plan_append older (front ++ [w]) back
  rw [List.append_assoc, List.singleton_append] at same
  rw [same, plan_snoc, List.append_assoc, ← length, List.getElem?_append_right (Nat.le_refl _),
    Nat.sub_self]
  rfl

theorem plan_split {before after : List Entry} {e : Entry}
    (split : plan older waiters = before ++ e :: after) :
    before = plan older (before.map (·.1)) ∧ e.2 = turn? older before e.1 := by
  have whole : waiters = before.map (·.1) ++ [e.1] ++ after.map (·.1) := by
    have names := congrArg (List.map (·.1)) split
    rw [map_plan] at names
    simpa using names
  obtain ⟨more, same⟩ := plan_append older (before.map (·.1) ++ [e.1]) (after.map (·.1))
  rw [← whole, split, plan_snoc, List.append_assoc] at same
  have length : before.length = (plan older (before.map (·.1))).length := by
    have names := congrArg List.length (map_plan older (before.map (·.1)))
    simpa using names.symm
  obtain ⟨front, rest⟩ := List.append_inj same length
  obtain ⟨entry, -⟩ := List.cons.inj rest
  rw [← front] at entry
  exact ⟨front, congrArg Prod.snd entry⟩

end Plans

section Holds

theorem leaves_of_mem {e : Entry} (mem : e ∈ plan older waiters) (same : e.1.name = name)
    (served : e.2 = some t) : t + e.1.hold ≤ spent name (plan older waiters) := by
  induction waiters using List.reverseRecOn with
  | nil => contradiction
  | append_singleton waiters w ih =>
    rw [plan_snoc] at mem ⊢
    rw [spent_snoc]
    rcases List.mem_append.mp mem with mem | mem
    · have bound := ih mem
      omega
    · obtain rfl := List.mem_singleton.mp mem
      obtain ⟨-, -, rfl⟩ := turn_eq_some.mp served
      rw [if_pos ⟨same, by rw [served]; rfl⟩]
      exact Nat.le_of_eq (congrArg (spent · _ + _) same)

theorem exists_holder (busy : now < spent name (plan older waiters)) :
    ∃ w t, (w, some t) ∈ plan older waiters ∧ w.name = name ∧ t ≤ now ∧ now < t + w.hold := by
  induction waiters using List.reverseRecOn with
  | nil => exact absurd busy (Nat.not_lt_zero now)
  | append_singleton waiters w ih =>
    rw [plan_snoc] at busy ⊢
    rw [spent_snoc] at busy
    by_cases early : now < spent name (plan older waiters)
    · obtain ⟨v, t, mem, found⟩ := ih early
      exact ⟨v, t, List.mem_append_left _ mem, found⟩
    · split at busy
      · rename_i counts
        obtain ⟨t, served⟩ := Option.isSome_iff_exists.mp counts.2
        dsimp only at counts served busy
        obtain ⟨-, -, turn⟩ := turn_eq_some.mp served
        rw [counts.1] at turn
        refine ⟨w, t, List.mem_append_right _ ?_, counts.1, by omega, by omega⟩
        rw [served]
        exact List.mem_singleton_self _
      · omega

theorem last_leaves (name : String) (older : String → Option Nat) (waiters : List Waiter) :
    (∀ e ∈ plan older waiters, e.1.name = name → e.2 = none) ∧
        spent name (plan older waiters) = 0 ∨
      ∃ e ∈ plan older waiters, ∃ t, e.1.name = name ∧ e.2 = some t ∧
        t + e.1.hold = spent name (plan older waiters) := by
  induction waiters using List.reverseRecOn with
  | nil => exact .inl ⟨List.forall_mem_nil _, rfl⟩
  | append_singleton waiters w ih =>
    rw [plan_snoc, spent_snoc]
    by_cases counts : w.name = name ∧ (turn? older (plan older waiters) w).isSome
    · obtain ⟨t, served⟩ := Option.isSome_iff_exists.mp counts.2
      obtain ⟨-, -, turn⟩ := turn_eq_some.mp served
      right
      refine ⟨_, List.mem_append_right _ (List.mem_singleton_self _), t, counts.1, served, ?_⟩
      rw [if_pos counts, turn, counts.1]
    · rw [if_neg counts, Nat.add_zero]
      rcases ih with ⟨nobody, zero⟩ | ⟨e, mem, found⟩
      · left
        refine ⟨?_, zero⟩
        intro e mem same
        rcases List.mem_append.mp mem with mem | mem
        · exact nobody e mem same
        · obtain rfl := List.mem_singleton.mp mem
          exact Option.not_isSome_iff_eq_none.mp fun served => counts ⟨same, served⟩
      · exact .inr ⟨e, List.mem_append_left _ mem, found⟩

/-- With no tie, there is time for all those in front unless they take longer than the timeout. -/
theorem in_time_iff (planned : entries = plan older waiters)
    (untied : ∀ v t, (v, some t) ∈ entries → v.name = w.name → t + v.hold ≠ w.timeout) :
    spent w.name entries ≤ w.timeout ↔
      (∀ v t, (v, some t) ∈ entries → v.name ≠ w.name) ∨ spent w.name entries < w.timeout := by
  rcases last_leaves w.name older waiters with
    ⟨nobody, zero⟩ | ⟨⟨v, start⟩, mem, t, same, served, leaves⟩
  · rw [← planned] at nobody zero
    constructor
    · intro _
      left
      intro v t mem same
      have unserved := nobody _ mem same
      contradiction
    · intro _
      omega
  · rw [← planned] at mem leaves
    dsimp only at same served leaves
    subst served
    have missed := untied v t mem same
    constructor
    · intro _
      right
      omega
    · rintro (nobody | _)
      · exact absurd same (nobody v t mem)
      · omega

theorem spent_filter (name : String) (older : String → Option Nat) (waiters : List Waiter) :
    spent name (plan older waiters) = spent name (plan older (waiters.filter (·.name = name))) := by
  induction waiters using List.reverseRecOn with
  | nil => rfl
  | append_singleton waiters w ih =>
    rw [plan_snoc, spent_snoc, List.filter_append]
    by_cases same : w.name = name
    · have turn : turn? older (plan older waiters) w =
          turn? older (plan older (waiters.filter (·.name = name))) w := by
        rw [turn?, turn?, same, ih]
      rw [List.filter_cons_of_pos (by simpa using same), List.filter_nil, plan_snoc, spent_snoc, ih,
        turn]
    · simp [same, ih]

end Holds

end MatrixSession.Race
