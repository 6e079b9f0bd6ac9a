import MatrixSession.Proofs.Catalog.Lineage

/-!
The chain of parents place by place. The walk along it, one declaration a step, is over after at
most one step more than there are declarations. How it ends is told by the first place where the
chain has no parent, an undeclared identifier, or one that it had before.
-/
namespace MatrixSession.Catalog

def parent? (catalog : Catalog) (identifier : String) : Option String :=
  (catalog.declared? identifier).bind (·.inherits)

def chain? (catalog : Catalog) (identifier : String) : Nat → Option String
  | 0 => some identifier
  | n + 1 => (catalog.chain? identifier n).bind catalog.parent?

def before (catalog : Catalog) (identifier : String) (n : Nat) : List String :=
  (List.range n).filterMap (catalog.chain? identifier)

/-- Up to a place the chain has no repetition, and nothing that is undeclared. -/
structure Clear (catalog : Catalog) (identifier : String) (n : Nat) : Prop where
  distinct : (catalog.before identifier n).Nodup
  declared : ∀ x ∈ catalog.before identifier n, catalog.declared? x ≠ none

structure Walk where
  visited : List String
  features : FeatureSet
  next : Option String

namespace Walk

def start (identifier : String) : Walk := ⟨[], .empty, some identifier⟩

/-- The end of a walk, if it comes within the given number of steps. -/
def run (catalog : Catalog) : Nat → Walk → Option (Except Fault FeatureSet)
  | _, ⟨_, features, none⟩ => some (.ok features)
  | 0, ⟨_, _, some _⟩ => none
  | n + 1, ⟨visited, features, some identifier⟩ =>
    if identifier ∈ visited then some (.error (.cycle identifier))
    else match catalog.declared? identifier with
      | none => some (.error (.unknownVersion identifier))
      | some spec =>
        run catalog n ⟨identifier :: visited, features.union (.ofList spec.features), spec.inherits⟩

end Walk

variable {catalog : Catalog} {identifier : String}

section Places

theorem chain_congr {i j : Nat} (same : catalog.chain? identifier i = catalog.chain? identifier j)
    (k : Nat) : catalog.chain? identifier (i + k) = catalog.chain? identifier (j + k) := by
  induction k with
  | zero => exact same
  | succ k ih => exact congrArg (·.bind catalog.parent?) ih

theorem chain_succ_eq_some {n : Nat} {x : String} :
    catalog.chain? identifier (n + 1) = some x ↔ ∃ heir spec,
      catalog.chain? identifier n = some heir ∧ catalog.declared? heir = some spec ∧
        spec.inherits = some x := by
  simp only [chain?, parent?, Option.bind_eq_some_iff]
  constructor
  · rintro ⟨heir, place, spec, found, inherits⟩
    exact ⟨heir, spec, place, found, inherits⟩
  · rintro ⟨heir, spec, place, found, inherits⟩
    exact ⟨heir, place, spec, found, inherits⟩

theorem chain_up_to {m n : Nat} (le : m ≤ n) {x : String}
    (place : catalog.chain? identifier n = some x) : ∃ y, catalog.chain? identifier m = some y := by
  induction n generalizing x with
  | zero =>
    obtain rfl := Nat.le_zero.mp le
    exact ⟨x, place⟩
  | succ n ih =>
    obtain rfl | less := Nat.eq_or_lt_of_le le
    · exact ⟨x, place⟩
    · obtain ⟨heir, -, place', -⟩ := chain_succ_eq_some.mp place
      exact ih (Nat.le_of_lt_succ less) place'

theorem mem_before {n : Nat} {x : String} :
    x ∈ catalog.before identifier n ↔ ∃ k < n, catalog.chain? identifier k = some x := by
  simp only [before, List.mem_filterMap, List.mem_range]

theorem before_succ {n : Nat} {x : String} (place : catalog.chain? identifier n = some x) :
    catalog.before identifier (n + 1) = catalog.before identifier n ++ [x] := by
  simp [before, List.range_succ, place]

theorem length_before {n : Nat} {x : String} (place : catalog.chain? identifier n = some x) :
    (catalog.before identifier n).length = n := by
  induction n generalizing x with
  | zero => rfl
  | succ n ih =>
    obtain ⟨heir, -, place', -⟩ := chain_succ_eq_some.mp place
    rw [before_succ place', List.length_append, ih place', List.length_singleton]

theorem clear_zero : catalog.Clear identifier 0 :=
  ⟨List.nodup_nil, List.forall_mem_nil _⟩

theorem Clear.succ {n : Nat} {x : String} (clear : catalog.Clear identifier n)
    (place : catalog.chain? identifier n = some x) (fresh : x ∉ catalog.before identifier n)
    (declared : catalog.declared? x ≠ none) : catalog.Clear identifier (n + 1) := by
  constructor
  · rw [before_succ place, List.nodup_append]
    refine ⟨clear.distinct, List.nodup_singleton x, ?_⟩
    rintro a before b last rfl
    exact fresh (List.mem_singleton.mp last ▸ before)
  · rw [before_succ place, List.forall_mem_append]
    exact ⟨clear.declared, List.forall_mem_singleton.mpr declared⟩

theorem Clear.pred {n : Nat} {x : String} (clear : catalog.Clear identifier (n + 1))
    (place : catalog.chain? identifier n = some x) :
    catalog.Clear identifier n ∧ x ∉ catalog.before identifier n := by
  obtain ⟨distinct, declared⟩ := clear
  rw [before_succ place] at distinct declared
  obtain ⟨distinct, -, apart⟩ := List.nodup_append.mp distinct
  refine ⟨⟨distinct, (List.forall_mem_append.mp declared).1⟩, fun mem => ?_⟩
  exact apart x mem x (List.mem_singleton_self x) rfl

theorem Clear.le_length {n : Nat} {x : String} (clear : catalog.Clear identifier n)
    (place : catalog.chain? identifier n = some x) : n ≤ catalog.specs.length := by
  have named : catalog.before identifier n ⊆ catalog.specs.map (·.identifier) := by
    intro y mem
    obtain ⟨spec, found⟩ := Option.ne_none_iff_exists'.mp (clear.declared y mem)
    obtain ⟨entry, rfl⟩ := mem_of_declared found
    exact List.mem_map_of_mem entry
  have bound := clear.distinct.length_le_of_subset named
  rwa [length_before place, List.length_map] at bound

theorem declared_of_next {n : Nat} {x y : String} (place : catalog.chain? identifier n = some x)
    (next : catalog.chain? identifier (n + 1) = some y) : catalog.declared? x ≠ none := by
  obtain ⟨heir, spec, place', found, -⟩ := chain_succ_eq_some.mp next
  obtain rfl := Option.some.inj (place.symm.trans place')
  simp [found]

/-- A chain with a last place repeats nothing, for behind a repetition it goes on as before. -/
theorem clear_of_last {n : Nat} {x : String} {spec : VersionSpec}
    (place : catalog.chain? identifier n = some x) (found : catalog.declared? x = some spec)
    (root : spec.inherits = none) : catalog.Clear identifier (n + 1) := by
  have last : catalog.chain? identifier (n + 1) = none := by
    simp [chain?, place, parent?, found, root]
  have declared {k : Nat} (le : k ≤ n) {y : String}
      (place' : catalog.chain? identifier k = some y) : catalog.declared? y ≠ none := by
    obtain rfl | less := Nat.eq_or_lt_of_le le
    · obtain rfl := Option.some.inj (place.symm.trans place')
      simp [found]
    · obtain ⟨z, next⟩ := chain_up_to less place
      exact declared_of_next place' next
  have distinct {i j : Nat} (le : j ≤ n) (less : i < j) :
      catalog.chain? identifier i ≠ catalog.chain? identifier j := by
    intro same
    have shifted := chain_congr same (n + 1 - j)
    rw [show j + (n + 1 - j) = n + 1 by omega, last] at shifted
    obtain ⟨y, earlier⟩ := chain_up_to (m := i + (n + 1 - j)) (by omega) place
    exact nomatch shifted.symm.trans earlier
  have upTo (m : Nat) (le : m ≤ n + 1) : catalog.Clear identifier m := by
    induction m with
    | zero => exact clear_zero
    | succ m ih =>
      obtain ⟨y, place'⟩ := chain_up_to (Nat.le_of_succ_le_succ le) place
      refine (ih (Nat.le_of_succ_le le)).succ place' ?_ (declared (by omega) place')
      intro mem
      obtain ⟨k, less, again⟩ := mem_before.mp mem
      exact distinct (by omega) less (again.trans place'.symm)
  exact upTo (n + 1) (Nat.le_refl _)

/-- Among the first places, one more than there are declarations, the chain comes to an end or back
    to where it was. -/
theorem exists_stop (catalog : Catalog) (identifier : String) :
    ∃ n ≤ catalog.specs.length, ∃ x, catalog.chain? identifier n = some x ∧
      catalog.Clear identifier n ∧ (x ∈ catalog.before identifier n ∨
        x ∉ catalog.before identifier n ∧ catalog.declared? x = none ∨
        x ∉ catalog.before identifier n ∧
          ∃ spec, catalog.declared? x = some spec ∧ spec.inherits = none) := by
  by_contra endless
  have goes (n : Nat) (le : n ≤ catalog.specs.length + 1) :
      ∃ x, catalog.chain? identifier n = some x ∧ catalog.Clear identifier n := by
    induction n with
    | zero => exact ⟨identifier, rfl, clear_zero⟩
    | succ n ih =>
      obtain ⟨x, place, clear⟩ := ih (Nat.le_of_succ_le le)
      have stopless := fun stop => endless ⟨n, Nat.le_of_succ_le_succ le, x, place, clear, stop⟩
      have fresh : x ∉ catalog.before identifier n := fun mem => stopless (.inl mem)
      cases found : catalog.declared? x with
      | none => exact absurd (.inr (.inl ⟨fresh, found⟩)) stopless
      | some spec =>
        cases inherits : spec.inherits with
        | none => exact absurd (.inr (.inr ⟨fresh, spec, found, inherits⟩)) stopless
        | some parent =>
          refine ⟨parent, chain_succ_eq_some.mpr ⟨x, spec, place, found, inherits⟩, ?_⟩
          exact clear.succ place fresh (by simp [found])
  obtain ⟨x, place, clear⟩ := goes _ (Nat.le_refl _)
  exact absurd (clear.le_length place) (Nat.not_succ_le_self _)

theorem Descends.snoc {heir parent : String} {spec : VersionSpec}
    (chain : catalog.Descends identifier heir) (found : catalog.declared? heir = some spec)
    (inherits : spec.inherits = some parent) : catalog.Descends identifier parent := by
  induction chain with
  | refl heir => exact .step found inherits (.refl parent)
  | step found' inherits' rest ih => exact .step found' inherits' (ih found)

theorem descends_iff {ancestor : String} :
    catalog.Descends identifier ancestor ↔ ∃ n, catalog.chain? identifier n = some ancestor := by
  constructor
  · intro chain
    induction chain with
    | refl identifier => exact ⟨0, rfl⟩
    | @step identifier parent ancestor spec found inherits rest ih =>
      obtain ⟨n, place⟩ := ih
      have shift (k : Nat) : catalog.chain? identifier (k + 1) = catalog.chain? parent k := by
        induction k with
        | zero => simp [chain?, parent?, found, inherits]
        | succ k ih => exact congrArg (·.bind catalog.parent?) ih
      exact ⟨n + 1, (shift n).trans place⟩
  · rintro ⟨n, place⟩
    induction n generalizing ancestor with
    | zero => exact Option.some.inj place ▸ .refl identifier
    | succ n ih =>
      obtain ⟨heir, spec, place', found, inherits⟩ := chain_succ_eq_some.mp place
      exact (ih place').snoc found inherits

theorem provides_iff {f : Feature} :
    catalog.Provides identifier f ↔ ∃ n x spec, catalog.chain? identifier n = some x ∧
      catalog.declared? x = some spec ∧ f ∈ spec.features := by
  constructor
  · rintro ⟨x, spec, chain, found, mem⟩
    obtain ⟨n, place⟩ := descends_iff.mp chain
    exact ⟨n, x, spec, place, found, mem⟩
  · rintro ⟨n, x, spec, place, found, mem⟩
    exact ⟨x, spec, descends_iff.mpr ⟨n, place⟩, found, mem⟩

end Places

section Walks

namespace Walk

variable {visited : List String} {features : FeatureSet} {spec : VersionSpec}

theorem run_cycle (seen : identifier ∈ visited) (n : Nat) :
    run catalog (n + 1) ⟨visited, features, some identifier⟩ =
      some (.error (.cycle identifier)) := by
  rw [run, if_pos seen]

theorem run_unknown (fresh : identifier ∉ visited) (missing : catalog.declared? identifier = none)
    (n : Nat) : run catalog (n + 1) ⟨visited, features, some identifier⟩ =
      some (.error (.unknownVersion identifier)) := by
  rw [run, if_neg fresh, missing]

theorem run_found (fresh : identifier ∉ visited) (found : catalog.declared? identifier = some spec)
    (n : Nat) : run catalog (n + 1) ⟨visited, features, some identifier⟩ =
      run catalog n ⟨identifier :: visited, features.union (.ofList spec.features),
        spec.inherits⟩ := by
  rw [run, if_neg fresh, found]

theorem run_over (n : Nat) : run catalog n ⟨visited, features, none⟩ = some (.ok features) := by
  cases n <;> rfl

theorem lineage_of_run {n : Nat} {result : Except Fault FeatureSet}
    (ended : run catalog n ⟨visited, features, some identifier⟩ = some result) :
    (catalog.lineageFrom visited identifier).map
      (fun specs => features.union (.ofList (specs.flatMap (·.features)))) = result := by
  induction n generalizing visited features identifier with
  | zero => contradiction
  | succ n ih =>
    by_cases seen : identifier ∈ visited
    · rw [run_cycle seen] at ended
      rw [lineage_seen seen, ← Option.some.inj ended]
      rfl
    · cases found : catalog.declared? identifier with
      | none =>
        rw [run_unknown seen found] at ended
        rw [lineage_undeclared seen found, ← Option.some.inj ended]
        rfl
      | some spec =>
        rw [run_found seen found] at ended
        rw [lineage_declared seen found]
        cases inherits : spec.inherits with
        | none =>
          rw [inherits, run_over] at ended
          simpa [Except.map] using ended
        | some parent =>
          rw [inherits] at ended
          rw [← ih ended, Option.elim_some]
          cases catalog.lineageFrom (identifier :: visited) parent with
          | error fault => rfl
          | ok specs =>
            simp [Except.map, FeatureSet.ofList_append, FeatureSet.union_assoc]

theorem capabilities_of_run {n : Nat} {result : Except Fault FeatureSet}
    (ended : run catalog n (start identifier) = some result) :
    catalog.capabilities identifier = result := by
  rw [← lineage_of_run ended, capabilities, lineage]
  cases catalog.lineageFrom [] identifier with
  | error fault => rfl
  | ok specs =>
    simp [bind, Except.bind, Except.map, FeatureSet.empty_union]

theorem run_start {n : Nat} {x : String} (clear : catalog.Clear identifier n)
    (place : catalog.chain? identifier n = some x) :
    ∃ features, ∀ more, run catalog (n + more) (start identifier) =
      run catalog more ⟨(catalog.before identifier n).reverse, features, some x⟩ := by
  induction n generalizing x with
  | zero =>
    obtain rfl := Option.some.inj place
    exact ⟨.empty, fun more => by rw [Nat.zero_add]; rfl⟩
  | succ n ih =>
    obtain ⟨heir, spec, place', found, inherits⟩ := chain_succ_eq_some.mp place
    obtain ⟨clear', fresh⟩ := clear.pred place'
    obtain ⟨features, goes⟩ := ih clear' place'
    refine ⟨features.union (.ofList spec.features), fun more => ?_⟩
    rw [Nat.succ_add_eq_add_succ, goes (more + 1), run_found (by simpa using fresh) found,
      inherits, before_succ place', List.reverse_append]
    rfl

end Walk

end Walks

section Ends

variable {n : Nat} {x : String} (clear : catalog.Clear identifier n)
  (place : catalog.chain? identifier n = some x)
include clear place

theorem ends_in_cycle (seen : x ∈ catalog.before identifier n) (more : Nat) :
    Walk.run catalog (n + (more + 1)) (.start identifier) = some (.error (.cycle x)) := by
  obtain ⟨features, goes⟩ := Walk.run_start clear place
  rw [goes, Walk.run_cycle (List.mem_reverse.mpr seen)]

theorem ends_unknown (fresh : x ∉ catalog.before identifier n) (missing : catalog.declared? x = none)
    (more : Nat) :
    Walk.run catalog (n + (more + 1)) (.start identifier) = some (.error (.unknownVersion x)) := by
  obtain ⟨features, goes⟩ := Walk.run_start clear place
  rw [goes, Walk.run_unknown (mt List.mem_reverse.mp fresh) missing]

theorem ends_at_root {spec : VersionSpec} (fresh : x ∉ catalog.before identifier n)
    (found : catalog.declared? x = some spec) (root : spec.inherits = none) :
    ∃ features, ∀ more,
      Walk.run catalog (n + (more + 1)) (.start identifier) = some (.ok features) := by
  obtain ⟨features, goes⟩ := Walk.run_start clear place
  refine ⟨features.union (.ofList spec.features), fun more => ?_⟩
  rw [goes, Walk.run_found (mt List.mem_reverse.mp fresh) found, root, Walk.run_over]

end Ends

/-- A walk has one step more than there are declarations to end, and does so at a place of the
    chain. -/
theorem walk_ends (catalog : Catalog) (identifier : String) :
    Walk.run catalog (catalog.specs.length + 1) (.start identifier) =
      some (catalog.capabilities identifier) ∧
    ∃ n x, catalog.Clear identifier n ∧ catalog.chain? identifier n = some x ∧
      (catalog.capabilities identifier = .error (.cycle x) ∧ x ∈ catalog.before identifier n ∨
        catalog.capabilities identifier = .error (.unknownVersion x) ∧
          x ∉ catalog.before identifier n ∧ catalog.declared? x = none ∨
        ∃ features spec, catalog.capabilities identifier = .ok features ∧
          catalog.declared? x = some spec ∧ spec.inherits = none) := by
  obtain ⟨n, le, x, place, clear, ends⟩ := exists_stop catalog identifier
  have steps : catalog.specs.length + 1 = n + (catalog.specs.length - n + 1) := by omega
  rw [steps]
  obtain seen | ⟨fresh, missing⟩ | ⟨fresh, spec, found, root⟩ := ends
  · have ended := ends_in_cycle clear place seen (catalog.specs.length - n)
    have looked := Walk.capabilities_of_run ended
    exact ⟨looked ▸ ended, n, x, clear, place, .inl ⟨looked, seen⟩⟩
  · have ended := ends_unknown clear place fresh missing (catalog.specs.length - n)
    have looked := Walk.capabilities_of_run ended
    exact ⟨looked ▸ ended, n, x, clear, place, .inr (.inl ⟨looked, fresh, missing⟩)⟩
  · obtain ⟨features, ended⟩ := ends_at_root clear place fresh found root
    have looked := Walk.capabilities_of_run (ended 0)
    exact ⟨looked ▸ ended _, n, x, clear, place, .inr (.inr ⟨features, spec, looked, found, root⟩)⟩

theorem capabilities_eq_ok {features : FeatureSet} :
    catalog.capabilities identifier = .ok features ↔
      (∃ n x spec, catalog.chain? identifier n = some x ∧ catalog.declared? x = some spec ∧
        spec.inherits = none) ∧
      ∀ f, f ∈ features ↔ ∃ n x spec, catalog.chain? identifier n = some x ∧
        catalog.declared? x = some spec ∧ f ∈ spec.features := by
  constructor
  · intro looked
    refine ⟨?_, fun f => (mem_capabilities looked f).trans provides_iff⟩
    obtain ⟨-, n, x, -, place, ⟨fault, -⟩ | ⟨fault, -⟩ | ⟨-, spec, -, found, root⟩⟩ :=
      walk_ends catalog identifier
    · exact nomatch looked.symm.trans fault
    · exact nomatch looked.symm.trans fault
    · exact ⟨n, x, spec, place, found, root⟩
  · rintro ⟨⟨n, x, spec, last, found, root⟩, members⟩
    obtain ⟨clear, fresh⟩ := (clear_of_last last found root).pred last
    obtain ⟨gathered, ended⟩ := ends_at_root clear last fresh found root
    have looked := Walk.capabilities_of_run (ended 0)
    have same : gathered = features := by
      ext f
      rw [mem_capabilities looked, provides_iff, members]
    exact same ▸ looked

theorem capabilities_eq_cycle {x : String} :
    catalog.capabilities identifier = .error (.cycle x) ↔ ∃ n, catalog.Clear identifier n ∧
      catalog.chain? identifier n = some x ∧ x ∈ catalog.before identifier n := by
  constructor
  · intro looked
    obtain ⟨-, n, y, clear, place, ⟨fault, seen⟩ | ⟨fault, -⟩ | ⟨features, -, fine, -⟩⟩ :=
      walk_ends catalog identifier
    · obtain rfl : x = y := by simpa using looked.symm.trans fault
      exact ⟨n, clear, place, seen⟩
    · exact nomatch looked.symm.trans fault
    · exact nomatch looked.symm.trans fine
  · rintro ⟨n, clear, place, seen⟩
    exact Walk.capabilities_of_run (ends_in_cycle clear place seen 0)

theorem capabilities_eq_unknown {x : String} :
    catalog.capabilities identifier = .error (.unknownVersion x) ↔
      ∃ n, catalog.Clear identifier n ∧ catalog.chain? identifier n = some x ∧
        x ∉ catalog.before identifier n ∧ catalog.declared? x = none := by
  constructor
  · intro looked
    obtain ⟨-, n, y, clear, place, ⟨fault, -⟩ | ⟨fault, fresh, missing⟩ | ⟨features, -, fine, -⟩⟩ :=
      walk_ends catalog identifier
    · exact nomatch looked.symm.trans fault
    · obtain rfl : x = y := by simpa using looked.symm.trans fault
      exact ⟨n, clear, place, fresh, missing⟩
    · exact nomatch looked.symm.trans fine
  · rintro ⟨n, clear, place, fresh, missing⟩
    exact Walk.capabilities_of_run (ends_unknown clear place fresh missing 0)

/-- The walk along the chain ends. It brings together what is declared on a chain that comes to a
    declaration without a parent, and else names the first identifier that the chain has twice or
    that nobody declares. -/
theorem capabilities_follow_chain (catalog : Catalog) (identifier : String) :
    Walk.run catalog (catalog.specs.length + 1) (.start identifier) =
      some (catalog.capabilities identifier) ∧
    (∀ features, catalog.capabilities identifier = .ok features ↔
      (∃ n x spec, catalog.chain? identifier n = some x ∧ catalog.declared? x = some spec ∧
        spec.inherits = none) ∧
      ∀ f, f ∈ features ↔ ∃ n x spec, catalog.chain? identifier n = some x ∧
        catalog.declared? x = some spec ∧ f ∈ spec.features) ∧
    (∀ x, catalog.capabilities identifier = .error (.cycle x) ↔
      ∃ n, catalog.Clear identifier n ∧ catalog.chain? identifier n = some x ∧
        x ∈ catalog.before identifier n) ∧
    (∀ x, catalog.capabilities identifier = .error (.unknownVersion x) ↔
      ∃ n, catalog.Clear identifier n ∧ catalog.chain? identifier n = some x ∧
        x ∉ catalog.before identifier n ∧ catalog.declared? x = none) ∧
    ((∃ features, catalog.capabilities identifier = .ok features) ∨
      ∃ x, catalog.capabilities identifier = .error (.cycle x) ∨
        catalog.capabilities identifier = .error (.unknownVersion x)) := by
  obtain ⟨ended, n, x, -, -, ends⟩ := walk_ends catalog identifier
  refine ⟨ended, fun _ => capabilities_eq_ok, fun _ => capabilities_eq_cycle,
    fun _ => capabilities_eq_unknown, ?_⟩
  obtain ⟨fault, -⟩ | ⟨fault, -⟩ | ⟨features, -, fine, -⟩ := ends
  · exact .inr ⟨x, .inl fault⟩
  · exact .inr ⟨x, .inr fault⟩
  · exact .inl ⟨features, fine⟩

end MatrixSession.Catalog
