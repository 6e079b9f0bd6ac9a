import MatrixSession.Command
import MatrixSession.Proofs.Url.Hosts

/-!
Commands below a web address. Ordinary segments are appended to the path of the base as they are, each
encoded behind a slash of its own. They change nothing else of the address, and can be read off it.
-/
namespace MatrixSession

namespace Url

/-- A segment with a name, which is neither dropped nor cut when it is appended. -/
structure IsOrdinary (segment : String) : Prop where
  named : segment ≠ ""
  not_dot : segment ≠ "."
  not_dots : segment ≠ ".."
  unbroken : ∀ c ∈ ['\t', '\r', '\n'], c ∉ segment.toList

instance (segment : String) : Decidable (IsOrdinary segment) :=
  decidable_of_iff (segment ≠ "" ∧ segment ≠ "." ∧ segment ≠ ".." ∧
      ['\t', '\r', '\n'].all fun c => decide (c ∉ segment.toList))
    ⟨fun h => ⟨h.1, h.2.1, h.2.2.1, fun c mem => of_decide_eq_true (List.all_eq_true.mp h.2.2.2 c mem)⟩,
      fun h => ⟨h.named, h.not_dot, h.not_dots,
        List.all_eq_true.mpr fun c mem => decide_eq_true (h.unbroken c mem)⟩⟩

theorem IsOrdinary.whole {segment : String} (ordinary : IsOrdinary segment) : IsWhole segment := by
  refine ⟨?_, ordinary.not_dot, ordinary.not_dots⟩
  apply List.filter_eq_self.mpr
  intro c mem
  have free : c ≠ '\t' ∧ c ≠ '\r' ∧ c ≠ '\n' := by
    refine ⟨?_, ?_, ?_⟩ <;> rintro rfl <;> exact ordinary.unbroken _ (by decide) mem
  simp [isTabOrBreak, free]

theorem segments_of_parse {text : String} {u : Url} (read : parse text = .ok u) (web : u.IsWeb) :
    ∃ list, u.path = .segments list := by
  unfold parse at read
  split at read
  · contradiction
  · rename_i scheme rest _
    dsimp only at read
    split_ifs at read with file special
    · unfold fileUrl at read
      split at read
      · obtain rfl := Except.ok.inj read
        exact ⟨_, rfl⟩
      · split at read
        · obtain rfl := Except.ok.inj read
          exact ⟨_, rfl⟩
        · obtain ⟨_, -, rfl⟩ := map_read read
          exact ⟨_, rfl⟩
    · obtain ⟨_, -, ended⟩ := bind_read read
      obtain rfl := Except.ok.inj ended
      exact ⟨_, rfl⟩
    · split at read
      · obtain ⟨_, -, ended⟩ := bind_read read
        obtain rfl := Except.ok.inj ended
        exact ⟨_, rfl⟩
      · obtain rfl := Except.ok.inj read
        exact ⟨_, rfl⟩
      · obtain rfl := Except.ok.inj read
        rcases web with rfl | rfl <;> exact absurd rfl special

theorem path_intercalate (first : String) (rest : List String) :
    (Path.segments (first :: rest)).text = "/" ++ "/".intercalate (first :: rest) := by
  induction rest generalizing first with
  | nil => simp [Path.text]
  | cons second rest ih =>
    calc (Path.segments (first :: second :: rest)).text
        = (Path.segments [first]).text ++ (Path.segments (second :: rest)).text :=
          path_append [first] (second :: rest)
      _ = ("/" ++ first) ++ ("/" ++ "/".intercalate (second :: rest)) := by rw [ih]; simp [Path.text]
      _ = "/" ++ "/".intercalate (first :: second :: rest) := by
          rw [String.intercalate_cons_cons]
          simp only [String.append_assoc]

end Url

namespace Command

open Url (IsOrdinary component)

variable {base : Url} {method : String} {list segments : List String} {c : Command}

theorem new_ordinary (web : base.IsWeb) (path : base.path = .segments list) (some : segments ≠ [])
    (ordinary : ∀ s ∈ segments, IsOrdinary s) :
    Command.new method base segments = .ok ⟨method, { base with
      path := .segments (Url.place (Url.withoutEmptyLast list) ++ segments.map (component ·.toList)) },
      none, .empty, true⟩ := by
  obtain ⟨first, rest, rfl⟩ := List.exists_cons_of_ne_nil some
  have whole : ∀ s ∈ first :: rest, Url.IsWhole s := by
    intro s mem
    exact (ordinary s mem).whole
  have named : first ≠ "" := (ordinary first List.mem_cons_self).named
  rw [Command.new, Url.withSegments_whole web path whole named]

/-- Ordinary segments extend the path of a web address, and nothing else of it. They are encoded, and
    so they can be told from the address. -/
theorem segments_stay_apart {text : String} (read : Url.parse text = .ok base) (web : base.IsWeb) :
    ∀ (method : String) (segments : List String), segments ≠ [] →
      (∀ s ∈ segments, IsOrdinary s) →
      ∃ c, Command.new method base segments = .ok c ∧
        c.path = base.stem ++ "/" ++ "/".intercalate (segments.map (component ·.toList)) ∧
        (∀ s ∈ segments, (∀ sep ∈ ['/', '?', '#'], sep ∉ (component s.toList).toList) ∧
          Percent.decode (Utf8.encode (component s.toList)) = Utf8.encode s) ∧
        c.url = { base with path := c.url.path } ∧
        ∀ (method' : String) (segments' : List String) (c' : Command), segments' ≠ [] →
          (∀ s ∈ segments', IsOrdinary s) → Command.new method' base segments' = .ok c' →
          c'.url.text = c.url.text → segments' = segments := by
  obtain ⟨list, path⟩ := Url.segments_of_parse read web
  intro method segments some ordinary
  refine ⟨_, new_ordinary web path some ordinary, ?_, ?_, rfl, ?_⟩
  · obtain ⟨first, rest, rfl⟩ := List.exists_cons_of_ne_nil some
    rw [Command.path, Url.stem, path, Url.path_append, List.map_cons, Url.path_intercalate,
      String.append_assoc]
  · intro s _
    refine ⟨?_, Url.decode_component s.toList⟩
    intro sep listed
    exact Url.component_closed _ sep (List.mem_append_left ['\\'] listed)
  · intro method' segments' c' some' ordinary' built same
    obtain rfl := Except.ok.inj ((new_ordinary web path some' ordinary').symm.trans built)
    exact Url.components_injective same

def adorned : Url :=
  ⟨"https", some ⟨"u", "p", some (.domain "hs.example"), some 8008⟩, false, .segments ["p", "", ""],
    some "q", some "f"⟩

theorem odd_segments_stay_apart :
    Url.parse "https://u:p@hs.example:8008/p//?q#f" = .ok adorned ∧ adorned.IsWeb ∧
      ["!a/b", "%2e", "?"] ≠ [] ∧ (∀ s ∈ ["!a/b", "%2e", "?"], IsOrdinary s) ∧
      ∃ c, Command.new "GET" adorned ["!a/b", "%2e", "?"] = .ok c ∧
        c.path = "/p//!a%2Fb/%252e/%3F" ∧ c.url = { adorned with path := c.url.path } ∧
        ∃ c', Command.new "GET" adorned ["!a", "b", "%2e", "?"] = .ok c' ∧
          c'.url.text ≠ c.url.text := by
  have read : Url.parse "https://u:p@hs.example:8008/p//?q#f" = .ok adorned := by decide +kernel
  have web : adorned.IsWeb := .inr rfl
  have ordinary : ∀ s ∈ ["!a/b", "%2e", "?"], IsOrdinary s := by decide
  have ordinary' : ∀ s ∈ ["!a", "b", "%2e", "?"], IsOrdinary s := by decide
  obtain ⟨c, built, path, -, kept, apart⟩ :=
    segments_stay_apart read web "GET" ["!a/b", "%2e", "?"] (by simp) ordinary
  have written : adorned.stem ++ "/" ++
      "/".intercalate (["!a/b", "%2e", "?"].map (component ·.toList)) = "/p//!a%2Fb/%252e/%3F" := by
    decide +kernel
  refine ⟨read, web, by simp, ordinary, c, built, path.trans written, kept, ?_⟩
  obtain ⟨c', built', -⟩ :=
    segments_stay_apart read web "GET" ["!a", "b", "%2e", "?"] (by simp) ordinary'
  refine ⟨c', built', ?_⟩
  intro same
  have equal := apart "GET" ["!a", "b", "%2e", "?"] c' (by simp) ordinary' built' same
  exact absurd equal (by decide)

end Command

end MatrixSession
