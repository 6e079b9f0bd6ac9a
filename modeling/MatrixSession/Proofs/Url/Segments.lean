import MatrixSession.Proofs.Url.Percent
import MatrixSession.Url.Extend
import Mathlib.Data.Bool.AllAny

/-!
What becomes of a segment that is appended to the path of a web address. A whole segment, one that is
no dot segment and holds no tab or line break, is one component of the path from then on, which can
be decoded and cut from its neighbours again. Any other segment is lost or changed.
-/
namespace MatrixSession

theorem toLower_cases (c : Char) : c.toLower = c ∨ ∃ n < 26, c = Char.ofNat (0x41 + n) := by
  unfold Char.toLower
  split
  · rename_i upper
    have low : 0x41 ≤ c.toNat := upper.1
    have high : c.toNat ≤ 0x5A := upper.2
    refine .inr ⟨c.toNat - 0x41, by omega, ?_⟩
    rw [Nat.add_sub_cancel' low, Char.ofNat_toNat]
  · exact .inl rfl

theorem eq_of_toLower {c d : Char} (lower : c.toLower = d) (other : d.isLower = false) : c = d := by
  have letters : ∀ n < 26, (Char.ofNat (0x41 + n)).toLower.isLower = true := by decide
  obtain same | ⟨n, lt, rfl⟩ := toLower_cases c
  · exact same.symm.trans lower
  · exact absurd (letters n lt) (by simp [lower, other])

theorem eq_of_toLower_e {c : Char} (lower : c.toLower = 'e') : c = 'e' ∨ c = 'E' := by
  have letters : ∀ n < 26, (Char.ofNat (0x41 + n)).toLower = 'e' → Char.ofNat (0x41 + n) = 'E' := by
    decide
  obtain same | ⟨n, lt, rfl⟩ := toLower_cases c
  · exact .inl (same.symm.trans lower)
  · exact .inr (letters n lt lower)

namespace Url

open Utf8 (encodeChars)

def IsWeb (u : Url) : Prop := u.scheme = "http" ∨ u.scheme = "https"

def component (text : List Char) : String := String.ofList (Percent.encode .specialSegment text)

/-- A segment that the path takes as it is. -/
structure IsWhole (segment : String) : Prop where
  unbroken : withoutBreaks segment.toList = segment.toList
  not_dot : segment ≠ "."
  not_dots : segment ≠ ".."

instance (segment : String) : Decidable (IsWhole segment) :=
  decidable_of_iff (withoutBreaks segment.toList = segment.toList ∧ segment ≠ "." ∧ segment ≠ "..")
    ⟨fun h => ⟨h.1, h.2.1, h.2.2⟩, fun h => ⟨h.unbroken, h.not_dot, h.not_dots⟩⟩

theorem IsWhole.dotless {segment : String} (whole : IsWhole segment) :
    segment.toList ≠ ['.', '.'] ∧ segment.toList ≠ ['.'] := by
  constructor
  · intro same
    exact whole.not_dots (String.toList_inj.mp same)
  · intro same
    exact whole.not_dot (String.toList_inj.mp same)

section Components

theorem decode_component (text : List Char) :
    Percent.decode (encodeChars (component text).toList) = encodeChars text := by
  have decoded := Percent.decode_encode (s := .specialSegment) (by decide) text []
  rw [List.append_nil, Percent.decode, List.append_nil] at decoded
  rwa [component, String.toList_ofList]

theorem component_injective {a b : List Char} (same : component a = component b) : a = b := by
  refine Utf8.encodeChars_injective ?_
  rw [← decode_component, same, decode_component]

theorem component_closed (text : List Char) :
    ∀ c ∈ ['/', '?', '#', '\\'], c ∉ (component text).toList := by
  intro c sep
  rw [component, String.toList_ofList]
  revert c
  have closed : ∀ c ∈ ['/', '?', '#', '\\'], Percent.EncodeSet.specialSegment.contains c = true ∧
      c ∉ "%0123456789ABCDEF".toList := List.all_iff_forall_prop.mp (by decide)
  exact fun c sep => Percent.not_mem_encode (closed c sep).1 (closed c sep).2 text

theorem decode_dot {name rest : List Char}
    (dot : name.map Char.toLower = '.' :: rest ∨ name.map Char.toLower = '%' :: '2' :: 'e' :: rest) :
    ∃ more, more.map Char.toLower = rest ∧
      Percent.decode (encodeChars name) = 0x2E :: Percent.decode (encodeChars more) := by
  obtain dot | dot := dot
  · obtain ⟨c, more, rfl, lower, rest⟩ := List.map_eq_cons_iff.mp dot
    obtain rfl := eq_of_toLower lower rfl
    exact ⟨more, rest, Percent.decode_plain (by decide) _⟩
  · obtain ⟨c, name, rfl, percent, dot⟩ := List.map_eq_cons_iff.mp dot
    obtain ⟨d, name, rfl, two, dot⟩ := List.map_eq_cons_iff.mp dot
    obtain ⟨e, more, rfl, letter, rest⟩ := List.map_eq_cons_iff.mp dot
    obtain rfl := eq_of_toLower percent rfl
    obtain rfl := eq_of_toLower two rfl
    refine ⟨more, rest, ?_⟩
    obtain rfl | rfl := eq_of_toLower_e letter <;> rfl

theorem decode_single_dot {name : List Char} (dot : isSingleDot name = true) :
    Percent.decode (encodeChars name) = encodeChars ['.'] := by
  simp only [isSingleDot, List.contains_eq_mem, decide_eq_true_eq, List.mem_cons,
    List.not_mem_nil, or_false] at dot
  have spelled : name.map Char.toLower = '.' :: [] ∨ name.map Char.toLower = '%' :: '2' :: 'e' :: [] :=
    dot.imp String.ofList_injective String.ofList_injective
  obtain ⟨more, nothing, decoded⟩ := decode_dot spelled
  obtain rfl := List.map_eq_nil_iff.mp nothing
  exact decoded

theorem decode_double_dot {name : List Char} (dots : isDoubleDot name = true) :
    Percent.decode (encodeChars name) = encodeChars ['.', '.'] := by
  simp only [isDoubleDot, List.contains_eq_mem, decide_eq_true_eq, List.mem_cons,
    List.not_mem_nil, or_false] at dots
  have spelled : ∃ last : List Char, (last = ['.'] ∨ last = ['%', '2', 'e']) ∧
      (name.map Char.toLower = '.' :: last ∨ name.map Char.toLower = '%' :: '2' :: 'e' :: last) := by
    obtain h | h | h | h := dots <;> have h := String.ofList_injective h
    · exact ⟨_, .inl rfl, .inl h⟩
    · exact ⟨_, .inr rfl, .inr h⟩
    · exact ⟨_, .inr rfl, .inl h⟩
    · exact ⟨_, .inl rfl, .inr h⟩
  obtain ⟨last, ends, first⟩ := spelled
  obtain ⟨more, rfl, decoded⟩ := decode_dot first
  rw [decoded]
  refine congrArg _ (decode_single_dot ?_)
  rw [isSingleDot]
  obtain h | h := ends <;> rw [h] <;> rfl

/-- Encoding makes no dots, since the percent sign of every spelling would be encoded. -/
theorem step_of_segment (segment : List Char) :
    Step.ofSegment .specialSegment false segment =
      if withoutBreaks segment = ['.', '.'] then .up
      else if withoutBreaks segment = ['.'] then .stay
      else .enter (component (withoutBreaks segment)) := by
  have spelled (text : List Char) :
      (isDoubleDot (Percent.encode .specialSegment text) = true ↔ text = ['.', '.']) ∧
        (isSingleDot (Percent.encode .specialSegment text) = true ↔ text = ['.']) := by
    have decoded := decode_component text
    rw [component, String.toList_ofList] at decoded
    refine ⟨⟨fun dots => ?_, fun same => same ▸ rfl⟩, ⟨fun dot => ?_, fun same => same ▸ rfl⟩⟩
    · exact Utf8.encodeChars_injective (decoded.symm.trans (decode_double_dot dots))
    · exact Utf8.encodeChars_injective (decoded.symm.trans (decode_single_dot dot))
  simp only [Step.ofSegment, Bool.false_eq_true, if_false, spelled]
  rfl

end Components

section Appending

/-- Where the next segment is entered: a bare slash is the top of the path. -/
def place (segments : List String) : List String := if segments = [""] then [] else segments

/-- The path of a base as far as it stays in front of what is appended. -/
def stem (u : Url) : String :=
  match u.path with
  | .segments list => (Path.segments (place (withoutEmptyLast list))).text
  | .plain text => text

def IsEntered (segments : List String) : Prop := segments ≠ [] ∧ segments ≠ [""]

variable {u : Url} {list segments : List String}

theorem IsEntered.append (entered : IsEntered segments) (name : String) :
    IsEntered (segments ++ [name]) := by
  refine ⟨by simp, fun same => entered.1 ?_⟩
  exact (List.append_eq_singleton_iff.mp same).elim And.left fun h => absurd h.2 (by simp)

theorem IsEntered.place (entered : IsEntered segments) : place segments = segments :=
  if_neg entered.2

theorem push_web (web : u.IsWeb) (segments : List String) (segment : String) :
    pushSegment u.scheme segments segment =
      (Step.ofSegment .specialSegment false segment.toList).finish (place segments) := by
  obtain web | web := web <;> rw [pushSegment, web] <;> rfl

theorem push_whole (web : u.IsWeb) {segment : String} (whole : IsWhole segment) :
    pushSegment u.scheme segments segment = place segments ++ [component segment.toList] := by
  obtain ⟨dots, dot⟩ := whole.dotless
  rw [push_web web, step_of_segment, whole.unbroken, if_neg dots, if_neg dot]
  rfl

theorem push_wholes (web : u.IsWeb) {added : List String} (whole : ∀ s ∈ added, IsWhole s)
    (entered : IsEntered segments) :
    added.foldl (pushSegment u.scheme) segments = segments ++ added.map (component ·.toList) := by
  induction added generalizing segments with
  | nil => exact (List.append_nil _).symm
  | cons first added ih =>
    obtain ⟨wholeFirst, whole⟩ := List.forall_mem_cons.mp whole
    rw [List.foldl_cons, push_whole web wholeFirst, entered.place, ih whole (entered.append _),
      List.append_assoc]
    rfl

theorem push_named (web : u.IsWeb) {first : String} {added : List String}
    (whole : ∀ s ∈ first :: added, IsWhole s) (named : first ≠ "") :
    (first :: added).foldl (pushSegment u.scheme) segments =
      place segments ++ (first :: added).map (component ·.toList) := by
  obtain ⟨wholeFirst, whole⟩ := List.forall_mem_cons.mp whole
  have entered : IsEntered (place segments ++ [component first.toList]) := by
    refine ⟨by simp, fun same => named ?_⟩
    have empty : component first.toList = "" := by simpa using congrArg List.getLast? same
    exact String.toList_inj.mp (component_injective (b := []) empty)
  rw [List.foldl_cons, push_whole web wholeFirst, push_wholes web whole entered, List.append_assoc]
  rfl

theorem filter_whole {added : List String} (whole : ∀ s ∈ added, IsWhole s) :
    (added.filter fun s => s ≠ "." ∧ s ≠ "..") = added :=
  List.filter_eq_self.mpr fun s mem => by simp [(whole s mem).not_dot, (whole s mem).not_dots]

theorem withSegments_whole (web : u.IsWeb) (path : u.path = .segments list) {first : String}
    {added : List String} (whole : ∀ s ∈ first :: added, IsWhole s) (named : first ≠ "") :
    u.withSegments? (first :: added) = some { u with
      path := .segments (place (withoutEmptyLast list) ++
        (first :: added).map (component ·.toList)) } := by
  rw [withSegments?, path]
  simp only [filter_whole whole, push_named web whole named]

end Appending

section Texts

theorem toList_path (segments : List String) :
    (Path.segments segments).text.toList = segments.flatMap ('/' :: ·.toList) := by
  simp [Path.text, String.toList_join, List.flatMap_map]

theorem path_append (a b : List String) :
    (Path.segments (a ++ b)).text = (Path.segments a).text ++ (Path.segments b).text := by
  refine String.toList_inj.mp ?_
  rw [String.toList_append, toList_path, toList_path, toList_path, List.flatMap_append]

theorem path_injective {a b : List String} (closed : ∀ s ∈ a, '/' ∉ s.toList)
    (closed' : ∀ s ∈ b, '/' ∉ s.toList)
    (same : (Path.segments a).text = (Path.segments b).text) : a = b := by
  -- a segment ends at the slash of the next one
  have cut {s : String} (free : '/' ∉ s.toList) (list : List String) :
      (s.toList ++ list.flatMap ('/' :: ·.toList)).takeWhile (· ≠ '/') = s.toList := by
    refine Text.takeWhile_stops (fun c mem => decide_eq_true fun same => free (same ▸ mem)) ?_
    cases list <;> simp
  rw [← String.toList_inj, toList_path, toList_path] at same
  induction a generalizing b with
  | nil =>
    cases b with
    | nil => rfl
    | cons y b => contradiction
  | cons x a ih =>
    cases b with
    | nil => contradiction
    | cons y b =>
      rw [List.flatMap_cons, List.flatMap_cons, List.cons_append, List.cons_append,
        List.cons.injEq] at same
      have first := congrArg (List.takeWhile (· ≠ '/')) same.2
      rw [cut (closed x List.mem_cons_self), cut (closed' y List.mem_cons_self)] at first
      obtain rfl := String.toList_inj.mp first
      rw [ih (List.forall_mem_cons.mp closed).2 (List.forall_mem_cons.mp closed').2
        (List.append_cancel_left same.2)]

theorem closed_path {segments : List String} {sep : Char} (other : sep ≠ '/')
    (closed : ∀ s ∈ segments, sep ∉ s.toList) : sep ∉ (Path.segments segments).text.toList := by
  rw [toList_path]
  intro mem
  obtain ⟨s, inside, mem⟩ := List.mem_flatMap.mp mem
  exact (List.mem_cons.mp mem).elim other (closed s inside)

def tail (u : Url) : String :=
  (u.query.map ("?" ++ ·)).getD "" ++ (u.fragment.map ("#" ++ ·)).getD ""

theorem cut_path (u : Url) {segments : List String}
    (closed : ∀ sep ∈ ['/', '?', '#'], ∀ s ∈ segments, sep ∉ s.toList) :
    ((Path.segments segments).text.toList ++ u.tail.toList).takeWhile (fun c => c ≠ '?' ∧ c ≠ '#') =
      (Path.segments segments).text.toList := by
  have query := closed_path (by decide) (closed '?' (by simp))
  have fragment := closed_path (by decide) (closed '#' (by simp))
  refine Text.takeWhile_stops (fun c mem => decide_eq_true ⟨?_, ?_⟩) ?_
  · exact fun same => query (same ▸ mem)
  · exact fun same => fragment (same ▸ mem)
  · intro c
    cases query : u.query <;> cases fragment : u.fragment <;> simp [tail, query, fragment] <;>
      exact fun same => by simp [← same]

/-- Two addresses that differ in what is appended to their path, and maybe in the query, are written
    differently. -/
theorem appended_injective {u : Url} {base a b : List String} {q q' : Option String}
    (left : ∀ sep ∈ ['/', '?', '#'], ∀ s ∈ a, sep ∉ s.toList)
    (right : ∀ sep ∈ ['/', '?', '#'], ∀ s ∈ b, sep ∉ s.toList)
    (same : ({ u with path := .segments (base ++ a), query := q } : Url).text =
      ({ u with path := .segments (base ++ b), query := q' } : Url).text) : a = b := by
  have written (list : List String) (q : Option String) :
      ({ u with path := .segments (base ++ list), query := q } : Url).text =
        ({ u with path := .segments base, query := none, fragment := none } : Url).text ++
          ((Path.segments list).text ++ ({ u with query := q } : Url).tail) := by
    simp [text, path_append, tail, String.append_assoc]
  simp only [written, ← String.toList_inj, String.toList_append] at same
  have cut := congrArg (List.takeWhile fun c => c ≠ '?' ∧ c ≠ '#') (List.append_cancel_left same)
  rw [cut_path _ left, cut_path _ right] at cut
  exact path_injective (left '/' (by simp)) (right '/' (by simp)) (String.toList_inj.mp cut)

theorem components_injective {u : Url} {base a b : List String} {q q' : Option String}
    (same : ({ u with path := .segments (base ++ a.map (component ·.toList)), query := q } : Url).text =
      ({ u with path := .segments (base ++ b.map (component ·.toList)), query := q' } : Url).text) :
    a = b := by
  have closed (segments : List String) : ∀ sep ∈ ['/', '?', '#'],
      ∀ s ∈ segments.map (component ·.toList), sep ∉ s.toList := by
    intro sep listed s mem
    obtain ⟨segment, -, rfl⟩ := List.mem_map.mp mem
    exact component_closed _ sep (List.mem_append_left ['\\'] listed)
  apply (List.map_inj_right _).mp (appended_injective (closed a) (closed b) same)
  intro s t eq
  exact String.toList_inj.mp (component_injective eq)

end Texts

end Url

end MatrixSession
