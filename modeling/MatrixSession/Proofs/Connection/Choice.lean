import MatrixSession.Proofs.Connection.Highest

/-!
What the choice of a version depends on. The order of the offered texts, their repetition and their
spelling do not matter, nor do texts that are no version; more offers can only raise the choice.
-/
namespace MatrixSession

theorem ApiVersion.le_antisymm {a b : ApiVersion} (ab : a ≤ b) (ba : b ≤ a) : a = b := by
  rw [le_iff] at ab ba
  cases a
  cases b
  simp only [mk.injEq, ← UInt32.toNat_inj] at *
  omega

namespace Negotiation

structure LastBest (client : List SupportedVersion) (offered : List String)
    (best : SupportedVersion) : Prop extends Best client offered best where
  last : (client.filter (·.version = best.version)).getLast? = some best

/-- Changes of the offered texts that say the same about versions. -/
inductive Noise : List String → List String → Prop where
  | reorder {offered offered' : List String} (perm : offered.Perm offered') : Noise offered offered'
  | double {text : String} {offered : List String} (mem : text ∈ offered) :
      Noise offered (text :: offered)
  | junk {text : String} {offered : List String} (unread : ApiVersion.ofAdvertised? text = none) :
      Noise offered (text :: offered)
  | respell {text text' : String} (left right : List String)
      (same : ApiVersion.ofAdvertised? text = ApiVersion.ofAdvertised? text') :
      Noise (left ++ text :: right) (left ++ text' :: right)
  | trans {first second third : List String} (one : Noise first second)
      (two : Noise second third) : Noise first third

variable {client : List SupportedVersion} {offered offered' : List String}
  {best other : SupportedVersion} {serverUrl : String}

theorem advertises_append {left right : List String} {version : ApiVersion} :
    Advertises (left ++ right) version ↔ Advertises left version ∨ Advertises right version := by
  simp only [Advertises, List.mem_append, or_and_right, exists_or]

theorem advertises_cons {text : String} {version : ApiVersion} :
    Advertises (text :: offered) version ↔
      ApiVersion.ofAdvertised? text = some version ∨ Advertises offered version := by
  simp [Advertises]

theorem Advertises.mono {version : ApiVersion} (offers : Advertises offered version)
    (more : offered ⊆ offered') : Advertises offered' version := by
  obtain ⟨text, mem, read⟩ := offers
  exact ⟨text, more mem, read⟩

theorem Noise.advertises (noise : Noise offered offered') (version : ApiVersion) :
    Advertises offered version ↔ Advertises offered' version := by
  induction noise with
  | reorder perm => exact ⟨(·.mono perm.subset), (·.mono perm.symm.subset)⟩
  | @double text offered mem =>
    rw [advertises_cons]
    refine ⟨.inr, fun offers => offers.elim (fun read => ⟨text, mem, read⟩) id⟩
  | junk unread => simp [advertises_cons, unread]
  | respell left right same => simp only [advertises_append, advertises_cons, same]
  | trans one two first second => exact first.trans second

theorem highest_last {versions : List SupportedVersion} (found : highest? versions = some best) :
    (versions.filter (·.version = best.version)).getLast? = some best := by
  induction versions generalizing best with
  | nil => contradiction
  | cons first rest ih =>
    rw [highest?] at found
    cases later : highest? rest with
    | none =>
      obtain rfl : first = best := by simpa [later] using found
      simp [highest_eq_none.mp later]
    | some top =>
      simp only [later] at found
      split at found
      · obtain rfl := Option.some.inj found
        rw [List.filter_cons]
        split
        · rw [List.getLast?_cons, ih later, Option.getD_some]
        · exact ih later
      · rename_i higher
        obtain rfl := Option.some.inj found
        have lower : rest.filter (·.version = first.version) = [] := by
          refine List.filter_eq_nil_iff.mpr fun other mem same => higher ?_
          exact decide_eq_true_eq.mp same ▸ (highest_mem later).2 other mem
        simp [lower]

theorem choose_last (chosen : choose? client offered = some best) :
    LastBest client offered best := by
  have top := choose_best chosen
  refine ⟨top, ?_⟩
  have offers : best.version ∈ advertised offered := mem_advertised.mpr top.advertised
  rw [← highest_last chosen, List.filter_filter]
  congr 1
  refine List.filter_congr fun other _ => ?_
  by_cases same : other.version = best.version <;> simp [same, offers]

theorem LastBest.unique (one : LastBest client offered best) (two : LastBest client offered other) :
    best = other := by
  have same : best.version = other.version :=
    ApiVersion.le_antisymm (two.highest best one.mem one.advertised)
      (one.highest other two.mem two.advertised)
  have last := one.last
  rw [same, two.last] at last
  exact (Option.some.inj last).symm

theorem LastBest.congr (same : ∀ version, Advertises offered version ↔ Advertises offered' version)
    (top : LastBest client offered best) : LastBest client offered' best where
  mem := top.mem
  advertised := (same _).mp top.advertised
  highest other mem offers := top.highest other mem ((same _).mpr offers)
  last := top.last

theorem settle_eq_ok :
    settle serverUrl client offered = .ok best ↔ LastBest client offered best := by
  rw [settle]
  constructor
  · cases chosen : choose? client offered with
    | none => exact fun fault => nomatch fault
    | some top => exact fun same => Except.ok.inj same ▸ choose_last chosen
  · intro top
    cases chosen : choose? client offered with
    | none => exact absurd top.advertised (choose_eq_none.mp chosen best top.mem)
    | some top' => exact congrArg _ ((choose_last chosen).unique top)

theorem exists_settled :
    (∃ best, settle serverUrl client offered = .ok best) ↔
      ∃ known ∈ client, Advertises offered known.version := by
  constructor
  · rintro ⟨best, settled⟩
    have top := settle_eq_ok.mp settled
    exact ⟨best, top.mem, top.advertised⟩
  · rintro ⟨known, mem, offers⟩
    cases chosen : choose? client offered with
    | none => exact absurd offers (choose_eq_none.mp chosen known mem)
    | some best => exact ⟨best, settle_eq_ok.mpr (choose_last chosen)⟩

/-- The choice is the last of the highest common versions, and there is one if there is any common
    version; a failure shows all that was offered. Noise does not change the choice, and with more
    offers there is a choice as high at least. -/
theorem settles_for_last_best (serverUrl : String) (client : List SupportedVersion)
    (offered : List String) :
    (∀ best, settle serverUrl client offered = .ok best ↔ LastBest client offered best) ∧
    ((∃ best, settle serverUrl client offered = .ok best) ↔
      ∃ known ∈ client, Advertises offered known.version) ∧
    ((∃ best, settle serverUrl client offered = .ok best) ∨
      settle serverUrl client offered = .error (.noCommonVersion serverUrl offered)) ∧
    (∀ offered', Noise offered offered' → ∀ best,
      settle serverUrl client offered = .ok best ↔ settle serverUrl client offered' = .ok best) ∧
    ∀ offered', offered ⊆ offered' → ∀ best, settle serverUrl client offered = .ok best →
      ∃ better, settle serverUrl client offered' = .ok better ∧ best.version ≤ better.version := by
  refine ⟨fun _ => settle_eq_ok, exists_settled, ?_, fun offered' noise best => ?_,
    fun offered' more best settled => ?_⟩
  · rw [settle]
    cases choose? client offered with
    | none => exact .inr rfl
    | some best => exact .inl ⟨best, rfl⟩
  · rw [settle_eq_ok, settle_eq_ok]
    exact ⟨.congr noise.advertises, .congr fun version => (noise.advertises version).symm⟩
  · have top := settle_eq_ok.mp settled
    have offers := top.advertised.mono more
    obtain ⟨better, settled'⟩ := exists_settled.mpr ⟨best, top.mem, offers⟩
    exact ⟨better, settled', (settle_eq_ok.mp settled').highest best top.mem offers⟩

def twice : List SupportedVersion := [⟨"a", ⟨1, 1⟩⟩, ⟨"b", ⟨1, 1⟩⟩, ⟨"c", ⟨1, 2⟩⟩]

theorem noise_settles_alike :
    Noise ["v1.1"] ["r0.6.1", "v01.01"] ∧ ["v1.1"] ⊆ ["v1.2", "v1.1"] ∧
      settle "https://hs/" twice ["v1.1"] = .ok ⟨"b", ⟨1, 1⟩⟩ ∧
      settle "https://hs/" twice ["r0.6.1", "v01.01"] = .ok ⟨"b", ⟨1, 1⟩⟩ ∧
      ∃ better, settle "https://hs/" twice ["v1.2", "v1.1"] = .ok better ∧
        (⟨1, 1⟩ : ApiVersion) ≤ better.version := by
  have noise : Noise ["v1.1"] ["r0.6.1", "v01.01"] := by
    have respelled : Noise ["v1.1"] ["v01.01"] := .respell [] [] (by decide)
    exact respelled.trans (.junk (by decide))
  have more : ["v1.1"] ⊆ ["v1.2", "v1.1"] := by simp
  obtain ⟨best, -, -, alike, higher⟩ := settles_for_last_best "https://hs/" twice ["v1.1"]
  have settled : settle "https://hs/" twice ["v1.1"] = .ok ⟨"b", ⟨1, 1⟩⟩ := by rfl
  exact ⟨noise, more, settled, (alike _ noise _).mp settled, higher _ more _ settled⟩

end Negotiation

end MatrixSession
