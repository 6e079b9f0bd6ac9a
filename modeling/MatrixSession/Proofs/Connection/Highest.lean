import MatrixSession.Negotiation

/-!
The order of versions, and the choice of the highest one that both sides know.
-/
namespace MatrixSession

namespace ApiVersion

theorem le_iff {a b : ApiVersion} :
    a ≤ b ↔ a.major.toNat < b.major.toNat ∨
      a.major.toNat = b.major.toNat ∧ a.minor.toNat ≤ b.minor.toNat := by
  rw [← UInt32.lt_iff_toNat_lt, ← UInt32.le_iff_toNat_le, UInt32.toNat_inj]
  rfl

protected theorem le_refl (a : ApiVersion) : a ≤ a := by
  rw [le_iff]
  omega

protected theorem le_total (a b : ApiVersion) : a ≤ b ∨ b ≤ a := by
  rw [le_iff, le_iff]
  omega

protected theorem le_trans {a b c : ApiVersion} (ab : a ≤ b) (bc : b ≤ c) : a ≤ c := by
  rw [le_iff] at *
  omega

end ApiVersion

namespace Negotiation

variable {client : List SupportedVersion} {offered : List String} {best : SupportedVersion}

def Advertises (offered : List String) (version : ApiVersion) : Prop :=
  ∃ text ∈ offered, ApiVersion.ofAdvertised? text = some version

/-- A version of the client that the server advertises, and no other such version is higher. -/
structure Best (client : List SupportedVersion) (offered : List String)
    (best : SupportedVersion) : Prop where
  mem : best ∈ client
  advertised : Advertises offered best.version
  highest : ∀ other ∈ client, Advertises offered other.version → other.version ≤ best.version

theorem mem_advertised {version : ApiVersion} :
    version ∈ advertised offered ↔ Advertises offered version :=
  List.mem_filterMap

theorem highest_eq_none {versions : List SupportedVersion} :
    highest? versions = none ↔ versions = [] := by
  cases versions with
  | nil => exact ⟨fun _ => rfl, fun _ => rfl⟩
  | cons first rest =>
    rw [highest?]
    split
    · simp
    · split <;> simp

theorem highest_mem {versions : List SupportedVersion} (found : highest? versions = some best) :
    best ∈ versions ∧ ∀ other ∈ versions, other.version ≤ best.version := by
  induction versions generalizing best with
  | nil => contradiction
  | cons first rest ih =>
    rw [highest?] at found
    cases later : highest? rest with
    | none =>
      obtain rfl : first = best := by simpa [later] using found
      obtain rfl := highest_eq_none.mp later
      exact ⟨List.mem_cons_self, List.forall_mem_singleton.mpr (ApiVersion.le_refl _)⟩
    | some top =>
      obtain ⟨mem, highest⟩ := ih later
      simp only [later] at found
      split at found
      · rename_i lower
        obtain rfl := Option.some.inj found
        exact ⟨List.mem_cons_of_mem _ mem, List.forall_mem_cons.mpr ⟨lower, highest⟩⟩
      · rename_i higher
        obtain rfl := Option.some.inj found
        have above : top.version ≤ first.version :=
          (ApiVersion.le_total first.version top.version).resolve_left higher
        refine ⟨List.mem_cons_self, List.forall_mem_cons.mpr ⟨ApiVersion.le_refl _, ?_⟩⟩
        exact fun other mem => ApiVersion.le_trans (highest other mem) above

theorem choose_best (chosen : choose? client offered = some best) : Best client offered best := by
  obtain ⟨mem, highest⟩ := highest_mem chosen
  simp only [List.mem_filter, decide_eq_true_eq, mem_advertised] at mem highest
  exact ⟨mem.1, mem.2, fun other known offered => highest other ⟨known, offered⟩⟩

theorem choose_eq_none :
    choose? client offered = none ↔ ∀ v ∈ client, ¬ Advertises offered v.version := by
  rw [choose?, highest_eq_none, List.filter_eq_nil_iff]
  simp only [decide_eq_true_eq, mem_advertised]

end Negotiation

end MatrixSession
