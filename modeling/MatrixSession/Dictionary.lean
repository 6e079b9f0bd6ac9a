/-!
Dictionaries with text keys, kept in ascending key order, so that two dictionaries with the same
entries are equal. A second entry for a key replaces the first.
-/
namespace MatrixSession

def insertEntry {α : Type} (key : String) (value : α) :
    List (String × α) → List (String × α)
  | [] => [(key, value)]
  | (k, v) :: rest =>
    if key < k then (key, value) :: (k, v) :: rest
    else if key = k then (key, value) :: rest
    else (k, v) :: insertEntry key value rest

def findKey? {α : Type} (key : String) (entries : List (String × α)) : Option α :=
  (entries.find? (·.1 = key)).map (·.2)

theorem mem_insertEntry {α : Type} {key : String} {value : α} {entries : List (String × α)}
    {e : String × α} (h : e ∈ insertEntry key value entries) :
    e = (key, value) ∨ e ∈ entries := by
  fun_induction insertEntry key value entries with
  | case1 => simpa using h
  | case2 k v rest less => simpa using h
  | case3 v rest _ =>
    rcases List.mem_cons.1 h with h | h
    · exact .inl h
    · exact .inr (List.mem_cons_of_mem _ h)
  | case4 k v rest _ _ ih =>
    rcases List.mem_cons.1 h with rfl | h
    · exact .inr (List.mem_cons_self)
    · rcases ih h with h | h
      · exact .inl h
      · exact .inr (List.mem_cons_of_mem _ h)

theorem ascending_insertEntry {α : Type} {entries : List (String × α)} (key : String) (value : α)
    (ascending : entries.Pairwise (·.1 < ·.1)) :
    (insertEntry key value entries).Pairwise (·.1 < ·.1) := by
  fun_induction insertEntry key value entries with
  | case1 => simp
  | case2 k v rest less =>
    refine List.pairwise_cons.2 ⟨fun e he => ?_, ascending⟩
    rcases List.mem_cons.1 he with rfl | he
    · exact less
    · exact String.lt_trans less ((List.pairwise_cons.1 ascending).1 e he)
  | case3 v rest _ => exact List.pairwise_cons.2 (List.pairwise_cons.1 ascending)
  | case4 k v rest notLess other ih =>
    have more := List.pairwise_cons.1 ascending
    refine List.pairwise_cons.2 ⟨fun e he => ?_, ih more.2⟩
    rcases mem_insertEntry he with rfl | he
    · exact Decidable.byContradiction fun notMore =>
        other (String.le_antisymm (String.not_lt.1 notMore) (String.not_lt.1 notLess))
    · exact more.1 e he

theorem findKey?_insertEntry {α : Type} (key other : String) (value : α)
    (entries : List (String × α)) :
    findKey? other (insertEntry key value entries) =
      if key = other then some value else findKey? other entries := by
  fun_induction insertEntry key value entries with
  | case1 => by_cases h : key = other <;> simp [findKey?, h]
  | case2 k v rest less => by_cases h : key = other <;> simp [findKey?, h]
  | case3 v rest _ => by_cases h : key = other <;> simp [findKey?, h]
  | case4 k v rest _ different ih =>
    by_cases h : k = other
    · have : key ≠ other := fun same => different (same.trans h.symm)
      simp [findKey?, h, this]
    · simpa [findKey?, h] using ih

theorem findKey?_eq_some_iff {α : Type} {e : String × α} {entries : List (String × α)}
    (ascending : entries.Pairwise (·.1 < ·.1)) :
    findKey? e.1 entries = some e.2 ↔ e ∈ entries := by
  induction entries with
  | nil => simp [findKey?]
  | cons first rest ih =>
    obtain ⟨above, ascending⟩ := List.pairwise_cons.1 ascending
    by_cases hit : first.1 = e.1
    · have absent : e ∉ rest := by
        intro mem
        exact String.lt_irrefl e.1 (hit ▸ above e mem)
      simp [findKey?, hit, absent, Prod.ext_iff, eq_comm]
    · have other : e ≠ first := by
        intro same
        exact hit (same ▸ rfl)
      simpa [findKey?, hit, other] using ih ascending

theorem eq_of_findKey? {α : Type} {a b : List (String × α)} (ascending : a.Pairwise (·.1 < ·.1))
    (ascending' : b.Pairwise (·.1 < ·.1)) (same : ∀ key, findKey? key a = findKey? key b) :
    a = b := by
  have nodup {entries : List (String × α)} (ascending : entries.Pairwise (·.1 < ·.1)) :
      entries.Nodup := by
    apply ascending.imp
    intro e f less same
    exact String.lt_irrefl e.1 (same ▸ less)
  have members (e : String × α) : e ∈ a ↔ e ∈ b := by
    rw [← findKey?_eq_some_iff ascending, same, findKey?_eq_some_iff ascending']
  have perm := (List.perm_ext_iff_of_nodup (nodup ascending) (nodup ascending')).2 members
  exact perm.eq_of_pairwise (fun _ _ _ _ less more => absurd more (String.lt_asymm less))
    ascending ascending'

theorem insertEntry_last {α : Type} {key : String} (value : α) {entries : List (String × α)}
    (above : ∀ e ∈ entries, e.1 < key) :
    insertEntry key value entries = entries ++ [(key, value)] := by
  induction entries with
  | nil => rfl
  | cons first rest ih =>
    obtain ⟨less, above⟩ := List.forall_mem_cons.1 above
    have other : key ≠ first.1 := by
      rintro rfl
      exact String.lt_irrefl _ less
    rw [insertEntry, if_neg (String.lt_asymm less), if_neg other, ih above, List.cons_append]

structure Dictionary (α : Type) where
  entries : List (String × α)
  ascending : entries.Pairwise (·.1 < ·.1)

namespace Dictionary

variable {α : Type}

def empty : Dictionary α := ⟨[], .nil⟩

instance : Inhabited (Dictionary α) := ⟨empty⟩

def insert (d : Dictionary α) (key : String) (value : α) : Dictionary α :=
  ⟨insertEntry key value d.entries, ascending_insertEntry key value d.ascending⟩

def erase (d : Dictionary α) (key : String) : Dictionary α :=
  ⟨d.entries.filter (·.1 ≠ key), d.ascending.filter _⟩

def find? (d : Dictionary α) (key : String) : Option α := findKey? key d.entries

theorem find?_insert (d : Dictionary α) (key other : String) (value : α) :
    (d.insert key value).find? other = if key = other then some value else d.find? other :=
  findKey?_insertEntry key other value d.entries

theorem find?_erase (d : Dictionary α) (key other : String) :
    (d.erase key).find? other = if key = other then none else d.find? other := by
  have : (d.entries.filter (·.1 ≠ key)).find? (·.1 = other) =
      if key = other then none else d.entries.find? (·.1 = other) := by
    induction d.entries with
    | nil => simp
    | cons e rest ih =>
      by_cases same : e.1 = key <;> by_cases hit : e.1 = other <;>
        by_cases h : key = other <;> simp_all
  simp only [find?, findKey?, erase, this]
  split <;> rfl

theorem ext_entries {d e : Dictionary α} (same : d.entries = e.entries) : d = e := by
  cases d
  cases e
  cases same
  rfl

theorem ext_find? {d e : Dictionary α} (same : ∀ key, d.find? key = e.find? key) : d = e :=
  ext_entries (eq_of_findKey? d.ascending e.ascending same)

/-- The entries put in one after the other, so that the last one for a key stays. -/
def ofList (entries : List (String × α)) : Dictionary α :=
  entries.foldl (fun d (key, value) => d.insert key value) empty

theorem ofList_entries (d : Dictionary α) : ofList d.entries = d := by
  have rebuilt (rest : List (String × α)) (front : Dictionary α)
      (ascending : (front.entries ++ rest).Pairwise (·.1 < ·.1)) :
      (rest.foldl (fun d e => d.insert e.1 e.2) front).entries = front.entries ++ rest := by
    induction rest generalizing front with
    | nil => exact (List.append_nil _).symm
    | cons e rest ih =>
      have above : ∀ e' ∈ front.entries, e'.1 < e.1 := fun e' mem =>
        (List.pairwise_append.1 ascending).2.2 e' mem e List.mem_cons_self
      have grown : (front.insert e.1 e.2).entries = front.entries ++ [e] := insertEntry_last e.2 above
      have next := ih (front.insert e.1 e.2) (by simpa [grown] using ascending)
      simpa [grown] using next
  exact ext_entries (rebuilt d.entries empty d.ascending)

end Dictionary

end MatrixSession
