import MatrixSession.Endpoint
import MatrixSession.Proofs.Command.Segments
import MatrixSession.Proofs.Url.Queries

/-!
Queries of commands below a web address. What the address lists in its query comes first, and then every
pair that is added, whatever characters it has; nothing else of the address takes part in it.
-/
namespace MatrixSession.Command

variable {base : Url} {c : Command} {method : String} {segments : List String}

def withQueries (c : Command) (pairs : List (String × String)) : Command :=
  pairs.foldl (fun c pair => c.withQuery pair.1 pair.2) c

theorem withQueries_url (c : Command) (pairs : List (String × String)) :
    (c.withQueries pairs).url = c.url.withQueryPairs pairs := by
  induction pairs generalizing c with
  | nil => rfl
  | cons pair pairs ih => exact ih (c.withQuery pair.1 pair.2)

theorem exists_new {list : List String} (path : base.path = .segments list) (method : String)
    (segments : List String) : ∃ c, Command.new method base segments = .ok c := by
  rw [Command.new, Url.withSegments?, path]
  exact ⟨_, rfl⟩

theorem url_of_new (built : Command.new method base segments = .ok c) :
    c.url = { base with path := c.url.path } := by
  unfold Command.new at built
  split at built
  · contradiction
  · rename_i url extended
    obtain rfl := Except.ok.inj built
    unfold Url.withSegments? at extended
    split at extended
    · contradiction
    · obtain rfl := Option.some.inj extended
      rfl

theorem roomInfo_of_new {room : String}
    (built : Command.new "GET" base (Endpoint.roomInfo room).segments = .ok c) :
    (Endpoint.roomInfo room).command base =
      .ok (c.withQueries [("max_depth", "0"), ("limit", "1")]) := by
  have method : (Endpoint.roomInfo room).method = "GET" := rfl
  rw [Endpoint.command, method, built]
  rfl

/-- Pairs that are added to the query of a command are read back in their order, behind those of the
    base, and the path, the host and the fragment stay. So the hierarchy is always asked for with both
    limits at the end. -/
theorem added_pairs_read_back {text : String} (read : Url.parse text = .ok base) (web : base.IsWeb) :
    (∀ method segments, ∃ c, Command.new method base segments = .ok c ∧
      ∀ pairs, (c.withQueries pairs).url.queryPairs = base.queryPairs ++ pairs ∧
        (c.withQueries pairs).path = c.path ∧ (c.withQueries pairs).url.host? = base.host? ∧
        (c.withQueries pairs).url.fragment = base.fragment) ∧
    ∀ room, ∃ c, (Endpoint.roomInfo room).command base = .ok c ∧
      c.url.queryPairs = base.queryPairs ++ [("max_depth", "0"), ("limit", "1")] := by
  obtain ⟨list, path⟩ := Url.segments_of_parse read web
  have listed {method : String} {segments : List String} {c : Command}
      (built : Command.new method base segments = .ok c) (pairs : List (String × String)) :
      (c.withQueries pairs).url.queryPairs = base.queryPairs ++ pairs := by
    rw [withQueries_url, Url.queryPairs_withQueryPairs, url_of_new built]
    rfl
  constructor
  · intro method segments
    obtain ⟨c, built⟩ := exists_new path method segments
    refine ⟨c, built, ?_⟩
    intro pairs
    have address := Url.withQueryPairs_eq c.url pairs
    refine ⟨listed built pairs, ?_, ?_, ?_⟩
    · rw [Command.path, withQueries_url, address]
      rfl
    · rw [withQueries_url, address, url_of_new built]
      rfl
    · rw [withQueries_url, address, url_of_new built]
  · intro room
    obtain ⟨c, built⟩ := exists_new path "GET" (Endpoint.roomInfo room).segments
    exact ⟨_, roomInfo_of_new built, listed built _⟩

def queried : Url :=
  ⟨"https", some ⟨"", "", some (.domain "hs.example"), none⟩, false, .segments ["p"],
    some "x=1+%C3%A9&&y", some "f"⟩

theorem odd_pairs_read_back :
    Url.parse "https://hs.example/p?x=1+é&&y#f" = .ok queried ∧ queried.IsWeb ∧
      ∃ c, Command.new "GET" queried [] = .ok c ∧
        (c.withQueries [("a&b", "=+ %\n"), ("", "#é")]).url.queryPairs =
          [("x", "1 é"), ("y", ""), ("a&b", "=+ %\n"), ("", "#é")] ∧
        (c.withQueries [("a&b", "=+ %\n"), ("", "#é")]).url.text =
          "https://hs.example/p?x=1+%C3%A9&&y&a%26b=%3D%2B+%25%0A&=%23%C3%A9#f" := by
  have read : Url.parse "https://hs.example/p?x=1+é&&y#f" = .ok queried := by decide +kernel
  have web : queried.IsWeb := .inr rfl
  have there : queried.queryPairs = [("x", "1 é"), ("y", "")] := by decide +kernel
  obtain ⟨c, built, added⟩ := (added_pairs_read_back read web).1 "GET" []
  obtain ⟨listed, -⟩ := added [("a&b", "=+ %\n"), ("", "#é")]
  refine ⟨read, web, c, built, ?_, ?_⟩
  · rw [listed, there]
    rfl
  · obtain rfl := Except.ok.inj built
    decide +kernel

end MatrixSession.Command
