import MatrixSession.Json.Reader

/-!
The values that can be read. However an object is written, with keys in any order and some of them
repeated, what is read of it lists every key once, in ascending order.
-/
namespace MatrixSession.Json

inductive Value.Ordered : Value → Prop
  | null : Ordered .null
  | bool (b : Bool) : Ordered (.bool b)
  | number (n : Number) : Ordered (.number n)
  | string (text : String) : Ordered (.string text)
  | array {items : List Value} (inner : ∀ v ∈ items, Ordered v) : Ordered (.array items)
  | object {members : List (String × Value)} (ascending : members.Pairwise (·.1 < ·.1))
      (inner : ∀ m ∈ members, Ordered m.2) : Ordered (.object members)

namespace Value

theorem ordered_ofMembers {members : List (String × Value)} (inner : ∀ m ∈ members, m.2.Ordered) :
    (ofMembers members).Ordered := by
  suffices inserted : ∀ entries : List (String × Value), entries.Pairwise (·.1 < ·.1) →
      (∀ m ∈ entries, m.2.Ordered) →
      (object (members.foldl (fun entries m => insertEntry m.1 m.2 entries) entries)).Ordered from
    inserted [] .nil (List.forall_mem_nil _)
  induction members with
  | nil => exact fun entries ascending each => .object ascending each
  | cons m members ih =>
    obtain ⟨key, value⟩ := m
    obtain ⟨first, rest⟩ := List.forall_mem_cons.mp inner
    intro entries ascending each
    refine ih rest _ (ascending_insertEntry key value ascending) fun e mem => ?_
    obtain rfl | mem := mem_insertEntry mem
    · exact first
    · exact each e mem

theorem Ordered.keys_nodup {members : List (String × Value)} (ordered : (Value.object members).Ordered) :
    (members.map (·.1)).Nodup := by
  cases ordered with
  | object ascending inner =>
    refine List.pairwise_map.mpr (ascending.imp fun less same => ?_)
    exact String.lt_irrefl _ (same ▸ less)

theorem Ordered.member {v found : Value} {key : String} (ordered : v.Ordered)
    (at_key : v.member? key = some found) : found.Ordered := by
  cases ordered with
  | object ascending inner =>
    obtain ⟨m, hit, rfl⟩ := Option.map_eq_some_iff.mp at_key
    exact inner m (List.mem_of_find?_eq_some hit)
  | _ => contradiction

end Value

section Items

variable {α : Type} {P : α → Prop} {closing : UInt8} {item : Reader α}

theorem someItems_forall (each : ∀ bytes a rest, item bytes = some (a, rest) → P a) {fuel : Nat}
    {bytes rest : List UInt8} {found : List α}
    (read : someItems closing item fuel bytes = some (found, rest)) : ∀ a ∈ found, P a := by
  induction fuel generalizing bytes found with
  | zero => contradiction
  | succ fuel ih =>
    rw [someItems] at read
    obtain ⟨⟨first, left⟩, one, read⟩ := Option.bind_eq_some_iff.mp read
    have fits := each _ _ _ one
    dsimp only at read
    split at read
    · contradiction
    · split at read
      · obtain ⟨⟨more, left⟩, others, read⟩ := Option.bind_eq_some_iff.mp read
        cases read
        exact List.forall_mem_cons.mpr ⟨fits, ih others⟩
      · split at read
        · cases read
          exact List.forall_mem_singleton.mpr fits
        · contradiction

theorem items_forall (each : ∀ bytes a rest, item bytes = some (a, rest) → P a)
    {bytes rest : List UInt8} {found : List α}
    (read : items closing item bytes = some (found, rest)) : ∀ a ∈ found, P a := by
  unfold items at read
  split at read
  · contradiction
  · split at read
    · cases read
      exact List.forall_mem_nil _
    · exact someItems_forall each read

theorem member_value {P : α → Prop} {value : String → Reader α}
    (each : ∀ key bytes a rest, value key bytes = some (a, rest) → P a) (bytes : List UInt8)
    (m : String × α) (rest : List UInt8) (read : member value bytes = some (m, rest)) : P m.2 := by
  obtain ⟨⟨key, left⟩, -, read⟩ := Option.bind_eq_some_iff.mp read
  dsimp only at read
  split at read
  · obtain ⟨⟨v, left⟩, inner, read⟩ := Option.bind_eq_some_iff.mp read
    cases read
    exact each _ _ _ _ inner
  · contradiction

end Items

theorem value_nested {depth : Nat} {bytes rest : List UInt8} {v : Value}
    (read : value depth bytes = some (v, rest)) :
    v.Ordered ∨ ∃ below input left, depth = below + 1 ∧
      ((∃ vs, items 0x5D (value below) input = some (vs, left) ∧ v = .array vs) ∨
        ∃ ms, items 0x7D (member fun _ => value below) input = some (ms, left) ∧
          v = .ofMembers ms) := by
  cases bytes with
  | nil =>
    unfold value at read
    contradiction
  | cons b input =>
    unfold value at read
    split at read
    · obtain ⟨found, -, same⟩ := Option.map_eq_some_iff.mp read
      cases same
      exact .inl (.string _)
    split at read
    · cases depth with
      | zero => contradiction
      | succ below =>
        obtain ⟨⟨vs, left⟩, inner, same⟩ := Option.map_eq_some_iff.mp read
        cases same
        exact .inr ⟨below, input, _, rfl, .inl ⟨vs, inner, rfl⟩⟩
    split at read
    · cases depth with
      | zero => contradiction
      | succ below =>
        obtain ⟨⟨ms, left⟩, inner, same⟩ := Option.map_eq_some_iff.mp read
        cases same
        exact .inr ⟨below, input, _, rfl, .inr ⟨ms, inner, rfl⟩⟩
    split at read
    · obtain ⟨found, -, same⟩ := Option.map_eq_some_iff.mp read
      cases same
      exact .inl .null
    split at read
    · obtain ⟨found, -, same⟩ := Option.map_eq_some_iff.mp read
      cases same
      exact .inl (.bool _)
    · obtain ⟨found, -, same⟩ := Option.map_eq_some_iff.mp read
      cases same
      exact .inl (.number _)

theorem value_ordered (depth : Nat) (bytes : List UInt8) (v : Value) (rest : List UInt8)
    (read : value depth bytes = some (v, rest)) : v.Ordered := by
  induction depth generalizing bytes v rest with
  | zero =>
    obtain flat | ⟨below, -, -, level, -⟩ := value_nested read
    · exact flat
    · contradiction
  | succ depth ih =>
    obtain flat | ⟨below, input, left, level, nested⟩ := value_nested read
    · exact flat
    · obtain rfl := Nat.succ.inj level
      obtain ⟨vs, inner, rfl⟩ | ⟨ms, inner, rfl⟩ := nested
      · exact .array (items_forall ih inner)
      · exact Value.ordered_ofMembers (items_forall (member_value fun _ => ih) inner)

theorem Value.ofBytes_ordered {bytes : List UInt8} {v : Value} (read : ofBytes? bytes = some v) :
    v.Ordered := by
  obtain ⟨⟨found, rest⟩, inner, read⟩ := Option.bind_eq_some_iff.mp read
  obtain ⟨-, -, read⟩ := Option.bind_eq_some_iff.mp read
  cases read
  exact value_ordered _ _ _ _ inner

end MatrixSession.Json
