import Mathlib.Data.List.Basic
import Mathlib.Data.List.TakeWhile
import MatrixSession.Text.Blank
import MatrixSession.Text.Split

/-!
Trimming and white space. What is left of a text after trimming is what stands between two margins and is
solid at either end itself.
-/
namespace MatrixSession.Text

variable {outer : Char → Bool}

def Solid (outer : Char → Bool) (text : List Char) : Prop :=
  (∀ c, text.head? = some c → outer c = false) ∧ ∀ c, text.getLast? = some c → outer c = false

theorem head_of_dropWhile {text : List Char} {c : Char}
    (first : (text.dropWhile outer).head? = some c) : outer c = false := by
  have stopped := List.head?_dropWhile_not outer text
  rwa [first] at stopped

theorem trimmed_solid {before core after : List Char} (solid : Solid outer core)
    (margins : ∀ c ∈ before ++ after, outer c = true) :
    trimmed outer (before ++ core ++ after) = core := by
  have margin : ∀ c ∈ before, outer c = true := fun c mem => margins c (List.mem_append_left _ mem)
  have margin' : ∀ c ∈ after.reverse, outer c = true :=
    fun c mem => margins c (List.mem_append_right _ (List.mem_reverse.mp mem))
  unfold trimmed
  rw [List.append_assoc, List.dropWhile_append_of_pos margin]
  by_cases empty : core = []
  · subst empty
    have gone : after.dropWhile outer = [] :=
      List.dropWhile_eq_nil_iff.mpr fun c mem => margin' c (List.mem_reverse.mpr mem)
    rw [List.nil_append, gone]
    rfl
  · have kept : (core ++ after).dropWhile outer = core ++ after := by
      have stops : ∀ c, (core ++ after).head? = some c → outer c = false := by
        intro c first
        exact solid.1 c ((List.head?_append_of_ne_nil _ empty).symm.trans first)
      exact dropWhile_stops (List.forall_mem_nil _) stops
    have ends : ∀ c, core.reverse.head? = some c → outer c = false := by
      intro c last
      rw [List.head?_reverse] at last
      exact solid.2 c last
    rw [kept, List.reverse_append, dropWhile_stops margin' ends, List.reverse_reverse]

theorem exists_margins (outer : Char → Bool) (text : List Char) :
    ∃ before after, text = before ++ trimmed outer text ++ after ∧
      Solid outer (trimmed outer text) ∧ ∀ c ∈ before ++ after, outer c = true := by
  unfold trimmed
  have rejoined := List.takeWhile_append_dropWhile (p := outer) (l := text)
  generalize remaining : text.dropWhile outer = middle at rejoined
  have behind := congrArg List.reverse
    (List.takeWhile_append_dropWhile (p := outer) (l := middle.reverse))
  rw [List.reverse_append, List.reverse_reverse] at behind
  refine ⟨text.takeWhile outer, (middle.reverse.takeWhile outer).reverse, ?_, ⟨?_, ?_⟩, ?_⟩
  · rw [List.append_assoc, behind, rejoined]
  · intro c first
    have nonempty : (middle.reverse.dropWhile outer).reverse ≠ [] := by
      intro none
      rw [none] at first
      contradiction
    have begins : (text.dropWhile outer).head? = some c := by
      rw [remaining, ← behind]
      exact (List.head?_append_of_ne_nil _ nonempty).trans first
    exact head_of_dropWhile begins
  · intro c last
    rw [List.getLast?_reverse] at last
    exact head_of_dropWhile last
  · intro c mem
    obtain mem | mem := List.mem_append.mp mem
    · exact List.mem_takeWhile_imp mem
    · exact List.mem_takeWhile_imp (List.mem_reverse.mp mem)

theorem trimmed_eq_iff {text core : List Char} : trimmed outer text = core ↔
    ∃ before after, text = before ++ core ++ after ∧ Solid outer core ∧
      ∀ c ∈ before ++ after, outer c = true := by
  constructor
  · rintro rfl
    exact exists_margins outer text
  · rintro ⟨before, after, rfl, solid, margins⟩
    exact trimmed_solid solid margins

/-- The characters with the property White_Space. -/
def whiteSpace : List Nat :=
  [0x9, 0xA, 0xB, 0xC, 0xD, 0x20, 0x85, 0xA0, 0x1680, 0x2000, 0x2001, 0x2002, 0x2003, 0x2004,
    0x2005, 0x2006, 0x2007, 0x2008, 0x2009, 0x200A, 0x2028, 0x2029, 0x202F, 0x205F, 0x3000]

theorem isBlank_iff {c : Char} : isBlank c = true ↔ c.toNat ∈ whiteSpace := by
  simp only [isBlank, whiteSpace, Bool.or_eq_true, decide_eq_true_eq, beq_iff_eq, List.mem_cons,
    List.not_mem_nil, or_false]
  omega

theorem isBlank_of_digit {c : Char} (digit : c.isDigit = true) : isBlank c = false := by
  obtain ⟨low, high⟩ := Char.isDigit_iff_toNat.mp digit
  have low : 0x30 ≤ c.toNat := low
  have high : c.toNat ≤ 0x39 := high
  refine Bool.eq_false_iff.mpr fun blank => ?_
  have space := isBlank_iff.mp blank
  simp only [whiteSpace, List.mem_cons, List.not_mem_nil, or_false] at space
  omega

end MatrixSession.Text
