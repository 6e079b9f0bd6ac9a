import MatrixSession.Client.Connect

/-!
The steps of a discovery, one operation after the other: the cache is asked, then the server, and what
can be read of its answer goes into the cache. What the cache holds under a key does not depend on the
clock; only whether it is shown does.
-/
namespace MatrixSession

namespace VersionCache

variable (cache : VersionCache)

def held? (key : String) : Option ServerSupports := (cache.entries.find? key).map (·.1)

theorem lookup_eq_some_iff {now : Nat} {key : String} {maxAge : Option Nat}
    {supports : ServerSupports} :
    cache.lookup now key maxAge = some supports ↔
      ∃ stored, cache.entries.find? key = some (supports, stored) ∧
        ∀ age, maxAge = some age → now - stored < age := by
  have young (stored : Nat) : (maxAge.all fun age => decide (now - stored < age)) = true ↔
      ∀ age, maxAge = some age → now - stored < age := by
    cases maxAge <;> simp
  rw [lookup, Option.map_eq_some_iff]
  constructor
  · rintro ⟨⟨_, stored⟩, shown, rfl⟩
    obtain ⟨found, fresh⟩ := Option.filter_eq_some_iff.mp shown
    exact ⟨stored, found, (young stored).mp fresh⟩
  · rintro ⟨stored, found, fresh⟩
    exact ⟨(supports, stored), Option.filter_eq_some_iff.mpr ⟨found, (young stored).mpr fresh⟩, rfl⟩

theorem lookup_any_age (now : Nat) (key : String) :
    cache.lookup now key none = cache.held? key := by
  unfold lookup held?
  cases cache.entries.find? key <;> rfl

theorem lookup_no_age (now : Nat) (key : String) : cache.lookup now key (some 0) = none := by
  rw [Option.eq_none_iff_forall_ne_some]
  intro supports shown
  obtain ⟨stored, -, young⟩ := cache.lookup_eq_some_iff.mp shown
  exact absurd (young 0 rfl) (Nat.not_lt_zero _)

theorem lookup_store (stored now : Nat) (key : String) (supports : ServerSupports)
    {maxAge : Option Nat} (young : ∀ age, maxAge = some age → now - stored < age) :
    (cache.store stored key supports).lookup now key maxAge = some supports := by
  refine (lookup_eq_some_iff _).mpr ⟨stored, ?_, young⟩
  rw [store, Dictionary.find?_insert, if_pos rfl]

theorem held_of_lookup {cache : VersionCache} {now : Nat} {key : String} {maxAge : Option Nat}
    {supports : ServerSupports} (shown : cache.lookup now key maxAge = some supports) :
    cache.held? key = some supports := by
  obtain ⟨stored, found, -⟩ := cache.lookup_eq_some_iff.mp shown
  rw [held?, found, Option.map_some]

theorem held_store (now : Nat) (key other : String) (supports : ServerSupports) :
    (cache.store now key supports).held? other =
      if key = other then some supports else cache.held? other := by
  rw [held?, store, Dictionary.find?_insert]
  split <;> rfl

theorem held_invalidate (key other : String) :
    (cache.invalidate key).held? other = if key = other then none else cache.held? other := by
  rw [held?, invalidate, Dictionary.find?_erase]
  split <;> rfl

theorem held_empty (key : String) : VersionCache.empty.held? key = none := rfl

end VersionCache

section Steps

variable (server : Url) (maxAge timeout : Option Nat)

def fetching : Procedure (Except Failure ServerSupports) :=
  match Endpoint.versions.build server with
  | .error failure => .done (.error failure)
  | .ok command => .perform (.send command ⟨true, timeout⟩) fun
    | .error failure => .done (.error failure)
    | .ok response =>
      match response.decode ServerSupports.ofBytes? with
      | .error failure => .done (.error failure)
      | .ok supports =>
        .perform (.remember (cacheKey server.text) supports) fun _ => .done (.ok supports)

theorem discover_steps :
    (discover server maxAge timeout).run =
      .perform (.consult (cacheKey server.text) maxAge) fun
        | some supports => .done (.ok supports)
        | none => fetching server timeout := by
  refine congrArg (Procedure.perform _) (funext fun cached => ?_)
  cases cached with
  | some supports => rfl
  | none =>
    unfold fetching
    cases Endpoint.versions.build server with
    | error failure => rfl
    | ok command =>
      refine congrArg (Procedure.perform _) (funext fun reply => ?_)
      cases reply with
      | error failure => rfl
      | ok response =>
        change (do
          let supports ← Call.ofExcept (response.decode ServerSupports.ofBytes?)
          Call.ask (.remember (cacheKey server.text) supports)
          pure supports : Call ServerSupports).run = _
        dsimp only
        cases response.decode ServerSupports.ofBytes? with
        | error failure => rfl
        | ok supports => rfl

theorem versions_request {command : Command}
    (built : Endpoint.versions.build server = .ok command) :
    server.withSegments? ["_matrix", "client", "versions"] = some command.url ∧
      command.method = "GET" ∧ command.body = none ∧ command.headers = .empty ∧
      command.bearer? = none ∧ command.requiresAuth = false := by
  unfold Endpoint.build Endpoint.command Command.new Endpoint.segments at built
  cases extended : server.withSegments? ["_matrix", "client", "versions"] with
  | none =>
    rw [extended] at built
    contradiction
  | some url =>
    rw [extended] at built
    obtain rfl := Except.ok.inj built
    exact ⟨rfl, rfl, rfl, rfl, rfl, rfl⟩

theorem versions_built {segments : List String} (path : server.path = .segments segments) :
    ∃ command, Endpoint.versions.build server = .ok command := by
  unfold Endpoint.build Endpoint.command Command.new Url.withSegments?
  rw [path]
  exact ⟨_, rfl⟩

theorem versions_unbuilt {text : String} (path : server.path = .plain text) :
    Endpoint.versions.build server = .error (.invalidUrl .cannotBeBase) := by
  unfold Endpoint.build Endpoint.command Command.new Url.withSegments?
  rw [path]
  rfl

end Steps

def Url.hs : Url :=
  ⟨"http", some ⟨"", "", some (.domain "hs"), none⟩, false, .segments [""], none, none⟩

theorem Url.parse_hs : Url.parse "http://hs" = .ok .hs := by rfl

def Response.listing : Response := ⟨200, Utf8.encode "\x7b\x22versions\x22:[\x22v1.1\x22]\x7d"⟩

def ServerSupports.listed : ServerSupports := ⟨["v1.1"], .empty⟩

theorem Response.listing_read : Response.listing.decode ServerSupports.ofBytes? = .ok .listed := by rfl

end MatrixSession
