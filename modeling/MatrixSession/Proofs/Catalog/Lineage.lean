import Mathlib
import MatrixSession.Catalog

/-!
The chain of parents behind an identifier, and what a look-up along it finds. Listing a catalog
checks the parents of its well-formed entries only, so a listed version can still miss a parent
behind an entry that the listing passes over.
-/
namespace MatrixSession.Catalog

/-- The first of the declarations with an identifier. -/
def declared? (catalog : Catalog) (identifier : String) : Option VersionSpec :=
  catalog.specs.find? (·.identifier = identifier)

/-- Following the parents from an identifier, each one in its first declaration, leads to another
    identifier. -/
inductive Descends (catalog : Catalog) : String → String → Prop where
  | refl (identifier : String) : Descends catalog identifier identifier
  | step {identifier parent ancestor : String} {spec : VersionSpec}
      (found : catalog.declared? identifier = some spec) (inherits : spec.inherits = some parent)
      (rest : Descends catalog parent ancestor) : Descends catalog identifier ancestor

def Provides (catalog : Catalog) (identifier : String) (f : Feature) : Prop :=
  ∃ ancestor spec, catalog.Descends identifier ancestor ∧ catalog.declared? ancestor = some spec ∧
    f ∈ spec.features

variable {catalog : Catalog} {identifier : String}

theorem Descends.last {ancestor : String} (chain : catalog.Descends identifier ancestor) :
    ancestor = identifier ∨ ∃ heir spec, catalog.Descends identifier heir ∧
      catalog.declared? heir = some spec ∧ spec.inherits = some ancestor := by
  induction chain with
  | refl identifier => exact .inl rfl
  | step found inherits rest ih =>
    right
    obtain rfl | ⟨heir, spec, chain, declared, parent⟩ := ih
    · exact ⟨_, _, .refl _, found, inherits⟩
    · exact ⟨heir, spec, .step found inherits chain, declared, parent⟩

theorem find_eq_declared (catalog : Catalog) (identifier : String) :
    catalog.find? identifier = catalog.declared? identifier := rfl

theorem mem_of_declared {spec : VersionSpec} (found : catalog.declared? identifier = some spec) :
    spec ∈ catalog.specs ∧ spec.identifier = identifier :=
  ⟨List.mem_of_find?_eq_some found, by simpa using List.find?_some found⟩

theorem declared_of_mem {spec : VersionSpec} (mem : spec ∈ catalog.specs) :
    catalog.declared? spec.identifier ≠ none := by
  intro missing
  simpa using List.find?_eq_none.mp missing spec mem

section Lineage

variable {visited : List String}

theorem lineage_seen (seen : identifier ∈ visited) :
    catalog.lineageFrom visited identifier = .error (.cycle identifier) := by
  rw [lineageFrom, dif_pos seen]

theorem lineage_undeclared (fresh : identifier ∉ visited)
    (missing : catalog.declared? identifier = none) :
    catalog.lineageFrom visited identifier = .error (.unknownVersion identifier) := by
  rw [← find_eq_declared] at missing
  rw [lineageFrom, dif_neg fresh]
  cases found : catalog.find? identifier with
  | none => rfl
  | some spec => exact nomatch missing.symm.trans found

theorem lineage_declared {spec : VersionSpec} (fresh : identifier ∉ visited)
    (declared : catalog.declared? identifier = some spec) :
    catalog.lineageFrom visited identifier =
      spec.inherits.elim (.ok [spec]) fun parent =>
        (catalog.lineageFrom (identifier :: visited) parent).map (spec :: ·) := by
  rw [← find_eq_declared] at declared
  rw [lineageFrom, dif_neg fresh]
  cases found : catalog.find? identifier with
  | none => exact nomatch declared.symm.trans found
  | some first =>
    obtain rfl := Option.some.inj (declared.symm.trans found)
    cases inherits : spec.inherits <;> simp [inherits]

theorem mem_lineage {specs : List VersionSpec}
    (walked : catalog.lineageFrom visited identifier = .ok specs) (spec : VersionSpec) :
    spec ∈ specs ↔ ∃ ancestor, catalog.Descends identifier ancestor ∧
      catalog.declared? ancestor = some spec := by
  fun_induction lineageFrom catalog visited identifier generalizing specs with
  | case1 visited identifier seen => contradiction
  | case2 visited identifier fresh missing => contradiction
  | case3 visited identifier fresh first found root =>
    obtain rfl := Except.ok.inj walked
    rw [find_eq_declared] at found
    rw [List.mem_singleton]
    constructor
    · rintro rfl
      exact ⟨identifier, .refl _, found⟩
    · rintro ⟨ancestor, chain, declared⟩
      cases chain with
      | refl => exact Option.some.inj (declared.symm.trans found)
      | step found' inherits rest =>
        obtain rfl := Option.some.inj (found.symm.trans found')
        exact absurd inherits (by simp [root])
  | case4 visited identifier fresh first found parent inherits ih =>
    rw [find_eq_declared] at found
    cases above : catalog.lineageFrom (identifier :: visited) parent with
    | error fault => simp [above, Except.map] at walked
    | ok more =>
      obtain rfl : first :: more = specs := by simpa [above, Except.map] using walked
      rw [List.mem_cons, ih above]
      constructor
      · rintro (rfl | ⟨ancestor, chain, declared⟩)
        · exact ⟨identifier, .refl _, found⟩
        · exact ⟨ancestor, .step found inherits chain, declared⟩
      · rintro ⟨ancestor, chain, declared⟩
        cases chain with
        | refl => exact .inl (Option.some.inj (declared.symm.trans found))
        | step found' inherits' rest =>
          obtain rfl := Option.some.inj (found.symm.trans found')
          obtain rfl := Option.some.inj (inherits.symm.trans inherits')
          exact .inr ⟨ancestor, rest, declared⟩

theorem lineage_fault {fault : Fault}
    (walked : catalog.lineageFrom visited identifier = .error fault) :
    ∃ ancestor, catalog.Descends identifier ancestor ∧
      (fault = .cycle ancestor ∨
        fault = .unknownVersion ancestor ∧ catalog.declared? ancestor = none) := by
  fun_induction lineageFrom catalog visited identifier with
  | case1 visited identifier seen =>
    exact ⟨identifier, .refl _, .inl (Except.error.inj walked).symm⟩
  | case2 visited identifier fresh missing =>
    rw [find_eq_declared] at missing
    exact ⟨identifier, .refl _, .inr ⟨(Except.error.inj walked).symm, missing⟩⟩
  | case3 visited identifier fresh first found root => contradiction
  | case4 visited identifier fresh first found parent inherits ih =>
    rw [find_eq_declared] at found
    cases above : catalog.lineageFrom (identifier :: visited) parent with
    | ok more => simp [above, Except.map] at walked
    | error fault' =>
      obtain rfl : fault' = fault := by simpa [above, Except.map] using walked
      obtain ⟨ancestor, chain, reason⟩ := ih above
      exact ⟨ancestor, .step found inherits chain, reason⟩

theorem mem_capabilities {features : FeatureSet}
    (found : catalog.capabilities identifier = .ok features) (f : Feature) :
    f ∈ features ↔ catalog.Provides identifier f := by
  unfold capabilities lineage at found
  cases walked : catalog.lineageFrom [] identifier with
  | error fault => simp [walked, bind, Except.bind] at found
  | ok specs =>
    obtain rfl : FeatureSet.ofList (specs.flatMap (·.features)) = features := by
      simpa [walked, bind, Except.bind] using found
    simp only [FeatureSet.mem_ofList, List.mem_flatMap, mem_lineage walked, Provides]
    constructor
    · rintro ⟨spec, ⟨ancestor, chain, declared⟩, mem⟩
      exact ⟨ancestor, spec, chain, declared, mem⟩
    · rintro ⟨ancestor, spec, chain, declared, mem⟩
      exact ⟨spec, ⟨ancestor, chain, declared⟩, mem⟩

theorem capabilities_fault {fault : Fault}
    (failed : catalog.capabilities identifier = .error fault) :
    ∃ ancestor, catalog.Descends identifier ancestor ∧
      (fault = .cycle ancestor ∨
        fault = .unknownVersion ancestor ∧ catalog.declared? ancestor = none) := by
  unfold capabilities lineage at failed
  cases walked : catalog.lineageFrom [] identifier with
  | error fault' =>
    obtain rfl : fault' = fault := by simpa [walked, bind, Except.bind] using failed
    exact lineage_fault walked
  | ok specs => simp [walked, bind, Except.bind] at failed

end Lineage

section Listing

def ParentDeclared (catalog : Catalog) (spec : VersionSpec) : Prop :=
  ∀ parent, spec.inherits = some parent → catalog.declared? parent ≠ none

/-- The versions of the entries with a well-formed identifier, in the order of the entries. -/
def wellFormed (specs : List VersionSpec) : List ApiVersion :=
  specs.filterMap fun spec => ApiVersion.ofIdentifier? spec.identifier

variable {listed result known : List SupportedVersion}

theorem enlist_well_formed {spec : VersionSpec} {version : ApiVersion}
    (read : ApiVersion.ofIdentifier? spec.identifier = some version)
    (accepted : catalog.enlist listed spec = .ok result) :
    catalog.ParentDeclared spec ∧ result = listed ++ [.canonical version] := by
  unfold enlist at accepted
  simp only [read] at accepted
  split at accepted
  · contradiction
  · rename_i nobody
    split at accepted
    · contradiction
    · refine ⟨?_, (Except.ok.inj accepted).symm⟩
      intro parent inherits
      simpa [inherits, find_eq_declared] using nobody

theorem enlist_malformed {spec : VersionSpec}
    (unread : ApiVersion.ofIdentifier? spec.identifier = none) :
    catalog.enlist listed spec = .ok listed := by
  simp [enlist, unread]

theorem enlist_all {specs : List VersionSpec}
    (accepted : specs.foldlM catalog.enlist listed = .ok result) :
    result = listed ++ (wellFormed specs).map .canonical ∧
      ∀ spec ∈ specs, ApiVersion.ofIdentifier? spec.identifier ≠ none →
        catalog.ParentDeclared spec := by
  induction specs generalizing listed with
  | nil =>
    obtain rfl := Except.ok.inj accepted
    exact ⟨(List.append_nil _).symm, List.forall_mem_nil _⟩
  | cons spec specs ih =>
    rw [List.foldlM_cons] at accepted
    cases first : catalog.enlist listed spec with
    | error fault => simp [first, bind, Except.bind] at accepted
    | ok listed' =>
      obtain ⟨rest, declared⟩ := ih (by simpa [first, bind, Except.bind] using accepted)
      cases read : ApiVersion.ofIdentifier? spec.identifier with
      | none =>
        obtain rfl : listed = listed' := Except.ok.inj ((enlist_malformed read).symm.trans first)
        refine ⟨by simpa [wellFormed, read] using rest, List.forall_mem_cons.mpr ⟨?_, declared⟩⟩
        exact fun parsed => absurd read parsed
      | some version =>
        obtain ⟨parent, rfl⟩ := enlist_well_formed read first
        refine ⟨by simpa [wellFormed, read] using rest, List.forall_mem_cons.mpr ⟨?_, declared⟩⟩
        exact fun _ => parent

theorem supported_versions (accepted : catalog.supportedVersions = .ok known) :
    (∀ v, v ∈ known ↔ ∃ spec ∈ catalog.specs, ∃ version,
      ApiVersion.ofIdentifier? spec.identifier = some version ∧ v = .canonical version) ∧
    ∀ spec ∈ catalog.specs, ApiVersion.ofIdentifier? spec.identifier ≠ none →
      catalog.ParentDeclared spec := by
  unfold supportedVersions at accepted
  cases all : catalog.specs.foldlM catalog.enlist [] with
  | error fault => simp [all, bind, Except.bind] at accepted
  | ok listed =>
    obtain ⟨rfl, declared⟩ := enlist_all all
    refine ⟨fun v => ?_, declared⟩
    obtain rfl : _ = known := by simpa [all, bind, Except.bind] using accepted
    simp only [List.mem_mergeSort, List.mem_map, wellFormed, List.mem_filterMap]
    constructor
    · rintro ⟨version, ⟨spec, mem, read⟩, rfl⟩
      exact ⟨spec, mem, version, read, rfl⟩
    · rintro ⟨spec, mem, version, read, rfl⟩
      exact ⟨version, ⟨spec, mem, read⟩, rfl⟩

def builtinVersions : List SupportedVersion :=
  [1, 2, 3, 4, 5, 6, 7].map fun minor => .canonical ⟨1, minor⟩

theorem listed_builtin : builtin.supportedVersions = .ok builtinVersions := by
  cbv

/-- A listed version is found under its identifier, and so is every parent along its chain, except
    for a cycle and for what an entry with a malformed identifier inherits from. -/
theorem listed_versions_bind (listed : catalog.supportedVersions = .ok known) {v : SupportedVersion}
    (mem : v ∈ known)
    (canonical : ∀ spec ∈ catalog.specs,
      ApiVersion.ofIdentifier? spec.identifier = some v.version → spec.identifier = v.identifier) :
    (∃ features, catalog.capabilities v.identifier = .ok features) ∨
      (∃ ancestor, catalog.capabilities v.identifier = .error (.cycle ancestor)) ∨
      ∃ heir spec parent, catalog.Descends v.identifier heir ∧ catalog.declared? heir = some spec ∧
        ApiVersion.ofIdentifier? heir = none ∧ spec.inherits = some parent ∧
        catalog.declared? parent = none ∧
        catalog.capabilities v.identifier = .error (.unknownVersion parent) := by
  obtain ⟨members, declared⟩ := supported_versions listed
  cases looked : catalog.capabilities v.identifier with
  | ok features => exact .inl ⟨features, rfl⟩
  | error fault =>
    right
    obtain ⟨ancestor, chain, rfl | ⟨rfl, missing⟩⟩ := capabilities_fault looked
    · exact .inl ⟨ancestor, rfl⟩
    · right
      obtain rfl | ⟨heir, spec, chain, found, inherits⟩ := chain.last
      · obtain ⟨spec, entry, version, read, rfl⟩ := (members v).mp mem
        have same : spec.identifier = (SupportedVersion.canonical version).identifier :=
          canonical spec entry read
        exact absurd missing (same ▸ declared_of_mem entry)
      · obtain ⟨entry, rfl⟩ := mem_of_declared found
        refine ⟨spec.identifier, spec, ancestor, chain, found, ?_, inherits, missing, rfl⟩
        refine Decidable.byContradiction fun wellFormed => ?_
        exact declared spec entry wellFormed ancestor inherits missing

/-- An entry that is passed over, with a parent that nobody declares. -/
def straying : Catalog := ⟨[⟨"v1p1", some "base", []⟩, ⟨"base", some "gone", []⟩]⟩

theorem listed_straying : straying.supportedVersions = .ok [.canonical ⟨1, 1⟩] := by cbv

theorem capabilities_straying :
    straying.capabilities "v1p1" = .error (.unknownVersion "gone") := by cbv

theorem straying_binds :
    ∃ known v, straying.supportedVersions = .ok known ∧ v ∈ known ∧
      (∀ spec ∈ straying.specs,
        ApiVersion.ofIdentifier? spec.identifier = some v.version → spec.identifier = v.identifier) ∧
      ∃ heir spec parent, straying.Descends v.identifier heir ∧ straying.declared? heir = some spec ∧
        ApiVersion.ofIdentifier? heir = none ∧ spec.inherits = some parent ∧
        straying.declared? parent = none ∧
        straying.capabilities v.identifier = .error (.unknownVersion parent) := by
  have canonical : ∀ spec ∈ straying.specs,
      ApiVersion.ofIdentifier? spec.identifier = some ⟨1, 1⟩ → spec.identifier = "v1p1" := by
    decide +kernel
  have mem : SupportedVersion.canonical ⟨1, 1⟩ ∈ [SupportedVersion.canonical ⟨1, 1⟩] :=
    List.mem_singleton_self _
  refine ⟨_, _, listed_straying, mem, canonical, ?_⟩
  obtain ⟨features, found⟩ | ⟨ancestor, cycle⟩ | strays :=
    listed_versions_bind listed_straying mem canonical
  · exact nomatch capabilities_straying.symm.trans found
  · exact nomatch capabilities_straying.symm.trans cycle
  · exact strays

def padded : Catalog := ⟨[⟨"v01p1", none, []⟩]⟩

theorem listed_versions_can_be_unknown :
    (∃ known, straying.supportedVersions = .ok known ∧ ∃ v ∈ known,
      straying.capabilities v.identifier = .error (.unknownVersion "gone")) ∧
    ∃ known, padded.supportedVersions = .ok known ∧ ∃ v ∈ known,
      padded.capabilities v.identifier = .error (.unknownVersion v.identifier) := by
  have listed_padded : padded.supportedVersions = .ok [.canonical ⟨1, 1⟩] := by cbv
  have unknown : padded.capabilities "v1p1" = .error (.unknownVersion "v1p1") := by cbv
  exact ⟨⟨_, listed_straying, _, List.mem_singleton_self _, capabilities_straying⟩,
    ⟨_, listed_padded, _, List.mem_singleton_self _, unknown⟩⟩

end Listing

end MatrixSession.Catalog
