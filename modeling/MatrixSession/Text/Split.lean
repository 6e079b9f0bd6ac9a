/-!
Cutting a text at a character. The cut at the first `sep` succeeds exactly on the texts
`left ++ sep :: right` with no `sep` in `left`.
-/
namespace MatrixSession.Text

def splitFirst? (sep : Char) : List Char → Option (List Char × List Char)
  | [] => none
  | c :: rest =>
    if c = sep then some ([], rest)
    else (splitFirst? sep rest).map fun (left, right) => (c :: left, right)

theorem splitFirst?_eq_some_iff {sep : Char} {text left right : List Char} :
    splitFirst? sep text = some (left, right) ↔ text = left ++ sep :: right ∧ sep ∉ left := by
  induction text generalizing left right with
  | nil => simp [splitFirst?]
  | cons c rest ih =>
    by_cases same : c = sep
    · subst same
      cases left with
      | nil => simp [splitFirst?]
      | cons d left => simp [splitFirst?]; intro h; simp [h]
    · cases left with
      | nil => simp [splitFirst?, same]
      | cons d left =>
        simp only [splitFirst?, if_neg same, Option.map_eq_some_iff, Prod.exists, Prod.mk.injEq,
          List.cons.injEq, List.cons_append, List.mem_cons, not_or]
        constructor
        · rintro ⟨l, r, h, ⟨rfl, rfl⟩, rfl⟩
          exact ⟨⟨rfl, (ih.1 h).1⟩, fun h => same h.symm, (ih.1 h).2⟩
        · rintro ⟨⟨rfl, h⟩, -, free⟩
          exact ⟨left, right, ih.2 ⟨h, free⟩, ⟨rfl, rfl⟩, rfl⟩

theorem splitFirst?_append {sep : Char} {front : List Char} (free : sep ∉ front)
    (text : List Char) : splitFirst? sep (front ++ text) =
      (splitFirst? sep text).map fun (left, right) => (front ++ left, right) := by
  induction front with
  | nil => simp
  | cons c front ih =>
    simp only [List.mem_cons, not_or] at free
    rw [List.cons_append, splitFirst?, if_neg (Ne.symm free.1), ih free.2, Option.map_map]
    rfl

theorem splitFirst?_eq_none_iff {sep : Char} {text : List Char} :
    splitFirst? sep text = none ↔ sep ∉ text := by
  induction text with
  | nil => simp [splitFirst?]
  | cons c text ih =>
    by_cases same : c = sep
    · simp [splitFirst?, same]
    · simp [splitFirst?, same, ih, Ne.symm same]

def splitAll (sep : Char → Bool) : List Char → List (List Char)
  | [] => [[]]
  | c :: rest =>
    if sep c then [] :: splitAll sep rest
    else match splitAll sep rest with
      | [] => [[c]]
      | part :: parts => (c :: part) :: parts

theorem splitAll_ne_nil (sep : Char → Bool) (text : List Char) : splitAll sep text ≠ [] := by
  cases text with
  | nil => simp [splitAll]
  | cons c text =>
    rw [splitAll]
    split
    · simp
    · split <;> simp

theorem splitAll_free {sep : Char → Bool} {text : List Char} (free : ∀ c ∈ text, sep c = false) :
    splitAll sep text = [text] := by
  induction text with
  | nil => rfl
  | cons c text ih =>
    obtain ⟨first, rest⟩ := List.forall_mem_cons.mp free
    rw [splitAll, first, if_neg Bool.false_ne_true, ih rest]

theorem splitAll_append {sep : Char → Bool} {c : Char} (stops : sep c = true)
    (left right : List Char) :
    splitAll sep (left ++ c :: right) = splitAll sep left ++ splitAll sep right := by
  induction left with
  | nil => simp [splitAll, stops]
  | cons d left ih =>
    rw [List.cons_append, splitAll, splitAll, ih]
    split
    · rfl
    · cases parts : splitAll sep left with
      | nil => exact absurd parts (splitAll_ne_nil sep left)
      | cons part parts => rfl

theorem mem_splitAll (sep : Char → Bool) {text : List Char} {c : Char} (mem : c ∈ text) :
    sep c = true ∨ ∃ part ∈ splitAll sep text, c ∈ part := by
  induction text with
  | nil => contradiction
  | cons d text ih =>
    rw [splitAll]
    cases stops : sep d with
    | true =>
      obtain rfl | mem := List.mem_cons.mp mem
      · exact .inl stops
      · refine (ih mem).imp_right fun ⟨part, inside, mem⟩ => ?_
        exact ⟨part, List.mem_cons_of_mem _ inside, mem⟩
    | false =>
      cases parts : splitAll sep text with
      | nil => exact absurd parts (splitAll_ne_nil sep text)
      | cons part parts =>
        rw [parts] at ih
        obtain rfl | mem := List.mem_cons.mp mem
        · exact .inr ⟨c :: part, by simp, by simp⟩
        · refine (ih mem).imp_right fun ⟨other, inside, mem⟩ => ?_
          obtain rfl | inside := List.mem_cons.mp inside
          · exact ⟨d :: other, by simp, List.mem_cons_of_mem _ mem⟩
          · exact ⟨other, List.mem_cons_of_mem _ inside, mem⟩

def splitLast? (sep : Char) (text : List Char) : Option (List Char × List Char) :=
  (splitFirst? sep text.reverse).map fun (right, left) => (left.reverse, right.reverse)

section Runs

variable {α : Type} {p : α → Bool} {text rest : List α} (whole : ∀ c ∈ text, p c = true)
  (stops : ∀ c, rest.head? = some c → p c = false)
include whole stops

theorem takeWhile_stops : (text ++ rest).takeWhile p = text := by
  rw [List.takeWhile_append_of_pos whole]
  cases rest with
  | nil => exact List.append_nil text
  | cons c rest =>
    rw [List.takeWhile_cons_of_neg (by simp [stops c rfl]), List.append_nil]

theorem dropWhile_stops : (text ++ rest).dropWhile p = rest := by
  rw [List.dropWhile_append_of_pos whole]
  cases rest with
  | nil => rfl
  | cons c rest => exact List.dropWhile_cons_of_neg (by simp [stops c rfl])

end Runs

end MatrixSession.Text
