import MatrixSession.Proofs.Catalog.Lineage
import MatrixSession.Proofs.Connection.Choice
import MatrixSession.Proofs.Version.Spelling

/-!
What the listing of a catalog checks. It compares each entry with those listed before it, but whether
it succeeds, and with what, does not depend on the order of the entries; only which fault it reports
does.
-/
namespace MatrixSession

open ApiVersion (Identifies ofIdentifier?_eq_some_iff)

namespace ApiVersion

end ApiVersion

namespace Catalog

structure Consistent (specs : List VersionSpec) : Prop where
  parents : ∀ spec ∈ specs, ∀ version, Identifies spec.identifier version →
    ∀ parent, spec.inherits = some parent → ∃ other ∈ specs, other.identifier = parent
  distinct : specs.Pairwise fun a b =>
    ∀ version, Identifies a.identifier version → ¬ Identifies b.identifier version

/-- What is wrong with an entry that stands behind `earlier` ones. A missing parent counts first. -/
inductive Offends (catalog : Catalog) (earlier : List VersionSpec) (spec : VersionSpec) :
    Fault → Prop
  | parent {version : ApiVersion} {parent : String} (reads : Identifies spec.identifier version)
      (inherits : spec.inherits = some parent)
      (missing : ∀ other ∈ catalog.specs, other.identifier ≠ parent) :
      Offends catalog earlier spec (.unknownParent spec.identifier parent)
  | duplicate {version : ApiVersion} {other : VersionSpec}
      (reads : Identifies spec.identifier version)
      (declared : ∀ parent, spec.inherits = some parent →
        ∃ other ∈ catalog.specs, other.identifier = parent)
      (mem : other ∈ earlier) (again : Identifies other.identifier version) :
      Offends catalog earlier spec (.duplicateVersion spec.identifier)

def Clean (catalog : Catalog) (earlier later : List VersionSpec) : Prop :=
  ∀ before spec after, later = before ++ spec :: after →
    ∀ fault, ¬ catalog.Offends (earlier ++ before) spec fault

def FirstFault (catalog : Catalog) (fault : Fault) : Prop :=
  ∃ earlier spec later, catalog.specs = earlier ++ spec :: later ∧
    catalog.Offends earlier spec fault ∧ catalog.Clean [] earlier

variable {catalog : Catalog} {earlier later specs : List VersionSpec} {spec : VersionSpec}
  {fault : Fault} {known : List SupportedVersion} {version : ApiVersion}

def entries (specs : List VersionSpec) : List SupportedVersion := (wellFormed specs).map .canonical

section Faults

theorem Offends.unique {fault' : Fault} (one : catalog.Offends earlier spec fault)
    (two : catalog.Offends earlier spec fault') : fault = fault' := by
  cases one with
  | parent _ inherits missing =>
    cases two with
    | parent _ inherits' =>
      obtain rfl := Option.some.inj (inherits.symm.trans inherits')
      rfl
    | duplicate _ declared =>
      obtain ⟨other, mem, same⟩ := declared _ inherits
      exact absurd same (missing other mem)
  | duplicate _ declared =>
    cases two with
    | parent _ inherits missing =>
      obtain ⟨other, mem, same⟩ := declared _ inherits
      exact absurd same (missing other mem)
    | duplicate => rfl

theorem between_eq_nil {spec' : VersionSpec} {between later' : List VersionSpec}
    (offends : catalog.Offends earlier spec fault) (clean : catalog.Clean [] (earlier ++ between))
    (rest : spec :: later = between ++ spec' :: later') : between = [] := by
  cases between with
  | nil => rfl
  | cons first between =>
    obtain ⟨rfl, -⟩ := List.cons.inj rest
    exact absurd offends (clean earlier spec between rfl fault)

theorem FirstFault.unique {fault' : Fault} (one : catalog.FirstFault fault)
    (two : catalog.FirstFault fault') : fault = fault' := by
  obtain ⟨earlier, spec, later, whole, offends, clean⟩ := one
  obtain ⟨earlier', spec', later', whole', offends', clean'⟩ := two
  rcases List.append_eq_append_iff.mp (whole.symm.trans whole') with
    ⟨between, rfl, rest⟩ | ⟨between, rfl, rest⟩
  · obtain rfl := between_eq_nil offends clean' rest
    obtain ⟨rfl, -⟩ := List.cons.inj rest
    rw [List.append_nil] at offends'
    exact offends.unique offends'
  · obtain rfl := between_eq_nil offends' clean rest
    obtain ⟨rfl, -⟩ := List.cons.inj rest
    rw [List.append_nil] at offends
    exact offends.unique offends'

end Faults

section Order

def ascending (specs : List VersionSpec) : List SupportedVersion :=
  (entries specs).mergeSort fun a b => decide (a.version ≤ b.version)

theorem Consistent.nodup (consistent : Consistent specs) : (wellFormed specs).Nodup := by
  refine List.pairwise_filterMap.mpr (consistent.distinct.imp ?_)
  intro a b apart version reads version' reads'
  rintro rfl
  exact apart version (ofIdentifier?_eq_some_iff.mp reads) (ofIdentifier?_eq_some_iff.mp reads')

theorem Consistent.perm (consistent : Consistent specs) {specs' : List VersionSpec}
    (perm : specs.Perm specs') : Consistent specs' := by
  constructor
  · intro spec mem version reads parent inherits
    obtain ⟨other, declared, same⟩ :=
      consistent.parents spec (perm.mem_iff.mpr mem) version reads parent inherits
    exact ⟨other, perm.mem_iff.mp declared, same⟩
  · refine (perm.pairwise_iff ?_).mp consistent.distinct
    intro a b apart version reads reads'
    exact apart version reads' reads

end Order

end Catalog

end MatrixSession
