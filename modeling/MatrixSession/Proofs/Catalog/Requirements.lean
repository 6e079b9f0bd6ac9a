import MatrixSession.Client.Basic
import MatrixSession.Proofs.Catalog.Chain
import MatrixSession.Proofs.Execution.Protocol

/-!
What a version can do its heirs can do. So along a chain of parents, from an ancestor down to its
heirs, a list of requirements gets further and further before one is not met.
-/
namespace MatrixSession

namespace Catalog

variable {catalog : Catalog} {heir ancestor : String} {newer : FeatureSet}

theorem Descends.trans {root : String} (first : catalog.Descends heir ancestor)
    (second : catalog.Descends ancestor root) : catalog.Descends heir root := by
  induction first with
  | refl => exact second
  | step found inherits rest ih => exact .step found inherits (ih second)

theorem Descends.rest {root : String} {spec : VersionSpec} (chain : catalog.Descends heir ancestor)
    (whole : catalog.Descends heir root) (found : catalog.declared? root = some spec)
    (last : spec.inherits = none) : catalog.Descends ancestor root := by
  induction chain with
  | refl => exact whole
  | step declared inherits rest ih =>
    apply ih
    cases whole with
    | refl =>
      obtain rfl := Option.some.inj (found.symm.trans declared)
      rw [last] at inherits
      contradiction
    | step declared' inherits' rest' =>
      obtain rfl := Option.some.inj (declared.symm.trans declared')
      obtain rfl := Option.some.inj (inherits.symm.trans inherits')
      exact rest'

theorem capabilities_of_root {root : String} {spec : VersionSpec}
    (chain : catalog.Descends heir root) (found : catalog.declared? root = some spec)
    (last : spec.inherits = none) : ∃ features, catalog.capabilities heir = .ok features := by
  obtain ⟨n, place⟩ := descends_iff.mp chain
  obtain ⟨clear, fresh⟩ := (clear_of_last place found last).pred place
  obtain ⟨features, ended⟩ := ends_at_root clear place fresh found last
  exact ⟨features, Walk.capabilities_of_run (ended 0)⟩

theorem capabilities_mono (chain : catalog.Descends heir ancestor)
    (bound : catalog.capabilities heir = .ok newer) :
    ∃ older, catalog.capabilities ancestor = .ok older ∧ ∀ f ∈ older, f ∈ newer := by
  obtain ⟨⟨n, root, spec, place, found, last⟩, -⟩ := capabilities_eq_ok.mp bound
  have rest := chain.rest (descends_iff.mpr ⟨n, place⟩) found last
  obtain ⟨older, bound'⟩ := capabilities_of_root rest found last
  refine ⟨older, bound', ?_⟩
  intro f mem
  obtain ⟨declarer, spec, below, declared, mem⟩ := (mem_capabilities bound' f).mp mem
  exact (mem_capabilities bound f).mpr ⟨declarer, spec, chain.trans below, declared, mem⟩

end Catalog

structure FirstUnmet (features : FeatureSet) (requirements : List Requirement) (index : Nat)
    (r : Requirement) : Prop where
  place : requirements[index]? = some r
  unmet : ∀ f ∈ r.features, f ∉ features
  before : ∀ i q, i < index → requirements[i]? = some q → q.MetBy features

namespace FirstUnmet

variable {features more : FeatureSet} {requirements : List Requirement} {index : Nat}
  {r : Requirement}

theorem head (unmet : ¬ r.MetBy features) : FirstUnmet features (r :: requirements) 0 r := by
  refine ⟨rfl, ?_, ?_⟩
  · intro f wanted has
    exact unmet ⟨f, wanted, has⟩
  · intro i q lt
    omega

theorem tail {q : Requirement} (met : q.MetBy features)
    (first : FirstUnmet features requirements index r) :
    FirstUnmet features (q :: requirements) (index + 1) r := by
  refine ⟨first.place, first.unmet, ?_⟩
  intro i p lt place
  cases i with
  | zero =>
    obtain rfl := Option.some.inj place
    exact met
  | succ i =>
    apply first.before i p _ place
    omega

theorem not_met (first : FirstUnmet features requirements index r) : ¬ r.MetBy features := by
  rintro ⟨f, wanted, has⟩
  exact first.unmet f wanted has

theorem exists_or (features : FeatureSet) (requirements : List Requirement) :
    (∃ index r, FirstUnmet features requirements index r) ∨
      ∀ r ∈ requirements, r.MetBy features := by
  induction requirements with
  | nil => exact .inr (List.forall_mem_nil _)
  | cons q requirements ih =>
    by_cases met : q.MetBy features
    · rcases ih with ⟨index, r, first⟩ | all
      · exact .inl ⟨index + 1, r, first.tail met⟩
      · exact .inr (List.forall_mem_cons.mpr ⟨met, all⟩)
    · exact .inl ⟨0, q, head met⟩

theorem mono (sub : ∀ f ∈ features, f ∈ more) (first : FirstUnmet more requirements index r) :
    ∃ i q, i ≤ index ∧ FirstUnmet features requirements i q := by
  rcases exists_or features requirements with ⟨i, q, first'⟩ | all
  · refine ⟨i, q, ?_, first'⟩
    apply Nat.le_of_not_lt
    intro later
    obtain ⟨f, wanted, has⟩ := first'.before index r later first.place
    exact first.unmet f wanted (sub f has)
  · obtain ⟨f, wanted, has⟩ := all r (List.mem_of_getElem? first.place)
    exact absurd (sub f has) (first.unmet f wanted)

end FirstUnmet

namespace Client

variable {c : Client} {requirements : List Requirement} {index : Nat} {r : Requirement}

theorem require_all_cons (c : Client) (q : Requirement) (requirements : List Requirement) :
    c.requireAll (q :: requirements) = c.require q >>= fun _ => c.requireAll requirements := rfl

theorem require_all_of_unmet (first : FirstUnmet c.features requirements index r) :
    c.requireAll requirements = .error (.unsupportedFeature r) := by
  induction requirements generalizing index with
  | nil => exact absurd first.place (by simp)
  | cons q requirements ih =>
    rw [require_all_cons]
    cases index with
    | zero =>
      obtain rfl := Option.some.inj first.place
      have refused : c.require q = .error (.unsupportedFeature q) := if_neg first.not_met
      rw [refused]
      rfl
    | succ index =>
      have granted : c.require q = .ok () := if_pos (first.before 0 q (Nat.succ_pos index) rfl)
      have rest : FirstUnmet c.features requirements index r := by
        refine ⟨first.place, first.unmet, ?_⟩
        intro i p lt place
        exact first.before (i + 1) p (Nat.succ_lt_succ lt) place
      rw [granted]
      exact ih rest

theorem require_all_of_met (met : ∀ r ∈ requirements, r.MetBy c.features) :
    c.requireAll requirements = .ok () := by
  induction requirements with
  | nil => rfl
  | cons q requirements ih =>
    obtain ⟨first, rest⟩ := List.forall_mem_cons.mp met
    have granted : c.require q = .ok () := if_pos first
    rw [require_all_cons, granted]
    exact ih rest

/-- A list of requirements fails with the first that is not met, and with nothing else. -/
theorem require_all_eq_error {failure : Failure} :
    c.requireAll requirements = .error failure ↔
      ∃ index r, FirstUnmet c.features requirements index r ∧ failure = .unsupportedFeature r := by
  constructor
  · intro failed
    rcases FirstUnmet.exists_or c.features requirements with ⟨index, r, first⟩ | met
    · refine ⟨index, r, first, ?_⟩
      exact Except.error.inj (failed.symm.trans (require_all_of_unmet first))
    · exact nomatch failed.symm.trans (require_all_of_met met)
  · rintro ⟨index, r, first, rfl⟩
    exact require_all_of_unmet first

theorem require_all_eq_ok :
    c.requireAll requirements = .ok () ↔ ¬ ∃ index r, FirstUnmet c.features requirements index r := by
  constructor
  · rintro fine ⟨index, r, first⟩
    exact nomatch fine.symm.trans (require_all_of_unmet first)
  · intro none
    rcases FirstUnmet.exists_or c.features requirements with first | met
    · exact absurd first none
    · exact require_all_of_met met

end Client

namespace Catalog

/-- A client fails at the first requirement that its features do not meet. An ancestor of a version has
    features if the version has, and no others; so it fails no later, and what it accepts the version
    accepts too. -/
theorem requirements_grow_along_lineage :
    (∀ (c : Client) (requirements : List Requirement),
      (∀ failure, c.requireAll requirements = .error failure ↔
        ∃ index r, FirstUnmet c.features requirements index r ∧ failure = .unsupportedFeature r) ∧
      (c.requireAll requirements = .ok () ↔
        ¬ ∃ index r, FirstUnmet c.features requirements index r)) ∧
    ∀ (catalog : Catalog) (heir ancestor : String) (newer : FeatureSet),
      catalog.Descends heir ancestor → catalog.capabilities heir = .ok newer →
      ∃ older, catalog.capabilities ancestor = .ok older ∧ (∀ f ∈ older, f ∈ newer) ∧
        ∀ requirements,
          (∀ index r, FirstUnmet newer requirements index r →
            ∃ i q, i ≤ index ∧ FirstUnmet older requirements i q) ∧
          ∀ c c' : Client, c.features = older → c'.features = newer →
            c.requireAll requirements = .ok () → c'.requireAll requirements = .ok () := by
  constructor
  · intro c requirements
    exact ⟨fun failure => Client.require_all_eq_error, Client.require_all_eq_ok⟩
  · intro catalog heir ancestor newer chain bound
    obtain ⟨older, bound', sub⟩ := capabilities_mono chain bound
    refine ⟨older, bound', sub, ?_⟩
    intro requirements
    refine ⟨fun index r first => first.mono sub, ?_⟩
    rintro c c' rfl rfl accepted
    rw [Client.require_all_eq_ok] at accepted ⊢
    rintro ⟨index, r, first⟩
    obtain ⟨i, q, -, first'⟩ := first.mono sub
    exact accepted ⟨i, q, first'⟩

theorem builtin_grows : ∃ newer older,
    builtin.Descends "v1p3" "v1p1" ∧ builtin.capabilities "v1p3" = .ok newer ∧
      builtin.capabilities "v1p1" = .ok older ∧
      FirstUnmet newer [.one .refreshTokenV3, .anyOf []] 1 (.anyOf []) ∧
      (∃ i q, i ≤ 1 ∧ FirstUnmet older [.one .refreshTokenV3, .anyOf []] i q) ∧
      { Client.sample with features := older }.requireAll [.one .createRoomV3] = .ok () ∧
      { Client.sample with features := newer }.requireAll [.one .createRoomV3] = .ok () := by
  have last : builtin.declared? "v1p3" = some ⟨"v1p3", some "v1p2", [.refreshTokenV3]⟩ := by decide
  have middle : builtin.declared? "v1p2" = some ⟨"v1p2", some "v1p1", []⟩ := by decide
  have root : builtin.declared? "v1p1" = some (builtin.specs.head (by decide)) := by decide
  have chain : builtin.Descends "v1p3" "v1p1" := .step last rfl (.step middle rfl (.refl _))
  obtain ⟨newer, bound⟩ := capabilities_of_root chain root (by decide)
  obtain ⟨older, bound', -, grows⟩ :=
    requirements_grow_along_lineage.2 builtin "v1p3" "v1p1" newer chain bound
  have refreshes : Feature.refreshTokenV3 ∈ newer :=
    (mem_capabilities bound _).mpr ⟨"v1p3", _, .refl _, rfl, by decide⟩
  have creates : Feature.createRoomV3 ∈ older :=
    (mem_capabilities bound' _).mpr ⟨"v1p1", _, .refl _, rfl, by decide⟩
  have empty : ¬ (Requirement.anyOf []).MetBy newer := by
    rintro ⟨f, wanted, -⟩
    contradiction
  have first : FirstUnmet newer [.one .refreshTokenV3, .anyOf []] 1 (.anyOf []) :=
    (FirstUnmet.head empty).tail ⟨_, List.mem_singleton_self _, refreshes⟩
  have accepted : { Client.sample with features := older }.requireAll [.one .createRoomV3] = .ok () :=
    Client.require_all_of_met
      (List.forall_mem_singleton.mpr ⟨_, List.mem_singleton_self _, creates⟩)
  exact ⟨newer, older, chain, bound, bound', first, (grows _).1 _ _ first, accepted,
    (grows _).2 _ _ rfl rfl accepted⟩

end Catalog

end MatrixSession
