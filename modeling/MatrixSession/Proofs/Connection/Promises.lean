import MatrixSession.Client.Connect
import MatrixSession.Proofs.Catalog.Lineage
import MatrixSession.Proofs.Connection.Highest
import MatrixSession.Proofs.Connection.InMemory
import MatrixSession.Proofs.Discovery.Basic

/-!
What connecting to a server promises. A client is bound to the highest version that both sides know,
with the features of its whole lineage, and at most one request is sent for that.
-/
namespace MatrixSession

variable {σ : Type} (now : σ → Nat) (outside : (op : Operation) → σ → op.Reply × σ)

namespace InMemory

/-- The cache holds a description of the server that is younger than the maximal age. -/
def Fresh (m : InMemory σ) (server : Url) (maxAge : Option Nat) (supports : ServerSupports) : Prop :=
  ∃ stored, m.cache.entries.find? (cacheKey server.text) = some (supports, stored) ∧
    ∀ age, maxAge = some age → now m.around - stored < age

def said (m : InMemory σ) (server : Url) (timeout : Option Nat) : Except Failure ServerSupports := do
  let command ← Endpoint.versions.build server
  let response ← (outside (.send command ⟨true, timeout⟩) m.around).1
  response.decode ServerSupports.ofBytes?

/-- What a server offers: by a fresh entry of the cache, and without one by its response. -/
def Offers (m : InMemory σ) (server : Url) (maxAge timeout : Option Nat)
    (supports : ServerSupports) : Prop :=
  m.Fresh now server maxAge supports ∨
    (∀ held, ¬ m.Fresh now server maxAge held) ∧ m.said outside server timeout = .ok supports

variable {now} {m : InMemory σ} {server : Url} {maxAge : Option Nat}

theorem consulted_fresh {supports : ServerSupports} (fresh : m.Fresh now server maxAge supports) :
    answer now outside (.consult (cacheKey server.text) maxAge) m = (some supports, m) :=
  congrArg (·, m) (m.cache.lookup_eq_some_iff.mpr fresh)

theorem consulted_stale (stale : ∀ held, ¬ m.Fresh now server maxAge held) :
    answer now outside (.consult (cacheKey server.text) maxAge) m = (none, m) := by
  refine congrArg (·, m) (Option.eq_none_iff_forall_ne_some.mpr fun held shown => ?_)
  exact stale held (m.cache.lookup_eq_some_iff.mp shown)

end InMemory

section Discovery

variable (server : Url) (maxAge timeout : Option Nat) (m : InMemory σ)

theorem discover_cached {supports : ServerSupports}
    (fresh : m.Fresh now server maxAge supports) :
    (discover server maxAge timeout).run.run (InMemory.answer now outside) m = (.ok supports, m) ∧
      (discover server maxAge timeout).run.transcript (InMemory.answer now outside) m =
        [⟨.consult (cacheKey server.text) maxAge, some supports⟩] := by
  rw [discover_steps, Procedure.run, Procedure.transcript, InMemory.consulted_fresh outside fresh]
  exact ⟨rfl, rfl⟩

theorem discover_fetched (stale : ∀ held, ¬ m.Fresh now server maxAge held) :
    ((discover server maxAge timeout).run.run (InMemory.answer now outside) m).1 =
        m.said outside server timeout ∧
      ((discover server maxAge timeout).run.transcript (InMemory.answer now outside) m).filterMap
        Exchange.sent? = (Endpoint.versions.build server).toOption.toList ∧
      ((discover server maxAge timeout).run.run (InMemory.answer now outside) m).2.tokens =
        m.tokens := by
  rw [discover_steps, Procedure.run, Procedure.transcript, InMemory.consulted_stale outside stale,
    InMemory.said]
  dsimp only
  unfold fetching
  cases Endpoint.versions.build server with
  | error failure => exact ⟨rfl, rfl, rfl⟩
  | ok command =>
    simp only [Procedure.run, Procedure.transcript, InMemory.answer, InMemory.forward, bind,
      Except.bind]
    cases (outside (.send command ⟨true, timeout⟩) m.around).1 with
    | error failure => exact ⟨rfl, rfl, rfl⟩
    | ok response =>
      dsimp only
      cases response.decode ServerSupports.ofBytes? with
      | error failure => exact ⟨rfl, rfl, rfl⟩
      | ok supports => exact ⟨rfl, rfl, rfl⟩

theorem tokens_discover :
    ((discover server maxAge timeout).run.run (InMemory.answer now outside) m).2.tokens =
      m.tokens := by
  by_cases cached : ∃ held, m.Fresh now server maxAge held
  · obtain ⟨held, fresh⟩ := cached
    rw [(discover_cached now outside server maxAge timeout m fresh).1]
  · exact (discover_fetched now outside server maxAge timeout m (not_exists.mp cached)).2.2

end Discovery

namespace Client

section Runs

variable (m : InMemory σ) {settings : Settings} {server : Url} {known : List SupportedVersion}

theorem connect_unparsed {fault : Url.Fault}
    (unparsed : Url.parse settings.serverUrl = .error fault) :
    connect settings = Call.ofExcept (.error (.invalidUrl fault)) := by
  rw [connect, unparsed]
  rfl

theorem connect_unlisted {fault : Catalog.Fault}
    (parsed : Url.parse settings.serverUrl = .ok server)
    (unlisted : settings.catalog.supportedVersions = .error fault) :
    connect settings = Call.ofExcept (.error (.catalog fault)) := by
  rw [connect, parsed, unlisted]
  rfl

theorem connect_listed (parsed : Url.parse settings.serverUrl = .ok server)
    (listed : settings.catalog.supportedVersions = .ok known) :
    connect settings =
      discover server settings.config.cacheMaxAge (some settings.config.requestTimeout) >>=
        fun supports => Call.ofExcept (negotiate settings server known supports.versions) := by
  rw [connect, parsed, listed]
  rfl

theorem connect_cached (parsed : Url.parse settings.serverUrl = .ok server)
    (listed : settings.catalog.supportedVersions = .ok known) {supports : ServerSupports}
    (fresh : m.Fresh now server settings.config.cacheMaxAge supports) :
    ((connect settings).run.run (InMemory.answer now outside) m).1 =
        negotiate settings server known supports.versions ∧
      ((connect settings).run.transcript (InMemory.answer now outside) m).filterMap
        Exchange.sent? = [] := by
  have ⟨found, asked⟩ := discover_cached now outside server settings.config.cacheMaxAge
    (some settings.config.requestTimeout) m fresh
  rw [connect_listed parsed listed, Procedure.result_read, Procedure.transcript_read, found, asked]
  exact ⟨rfl, rfl⟩

theorem connect_fetched (parsed : Url.parse settings.serverUrl = .ok server)
    (listed : settings.catalog.supportedVersions = .ok known)
    (stale : ∀ held, ¬ m.Fresh now server settings.config.cacheMaxAge held) :
    ((connect settings).run.run (InMemory.answer now outside) m).1 =
        (m.said outside server (some settings.config.requestTimeout) >>= fun supports =>
          negotiate settings server known supports.versions) ∧
      ((connect settings).run.transcript (InMemory.answer now outside) m).filterMap
        Exchange.sent? = (Endpoint.versions.build server).toOption.toList := by
  have ⟨answered, sent, _⟩ := discover_fetched now outside server settings.config.cacheMaxAge
    (some settings.config.requestTimeout) m stale
  rw [connect_listed parsed listed, Procedure.result_read, Procedure.transcript_read, answered, sent]
  exact ⟨rfl, rfl⟩

theorem connect_offered (parsed : Url.parse settings.serverUrl = .ok server)
    (listed : settings.catalog.supportedVersions = .ok known) {supports : ServerSupports}
    (offers : m.Offers now outside server settings.config.cacheMaxAge
      (some settings.config.requestTimeout) supports) :
    ((connect settings).run.run (InMemory.answer now outside) m).1 =
      negotiate settings server known supports.versions := by
  obtain fresh | ⟨stale, said⟩ := offers
  · exact (connect_cached now outside m parsed listed fresh).1
  · rw [(connect_fetched now outside m parsed listed stale).1, said]
    rfl

end Runs

section Promises

variable (settings : Settings) (m : InMemory σ)

theorem negotiate_bound {server : Url} {known : List SupportedVersion} {texts : List String}
    {client : Client} (bound : negotiate settings server known texts = .ok client) :
    client.server = server ∧ Negotiation.Best known texts client.version ∧
      ∀ f, f ∈ client.features ↔ settings.catalog.Provides client.version.identifier f := by
  unfold negotiate Negotiation.settle at bound
  cases chosen : Negotiation.choose? known texts with
  | none => simp [chosen, bind, Except.bind] at bound
  | some version =>
    cases found : settings.catalog.capabilities version.identifier with
    | error fault => simp [chosen, found, Except.mapError, bind, Except.bind] at bound
    | ok features =>
      obtain rfl : ⟨server, version, features, settings.refreshBuilder, settings.config⟩ = client := by
        simpa [chosen, found, Except.mapError, bind, Except.bind] using bound
      exact ⟨rfl, Negotiation.choose_best chosen, Catalog.mem_capabilities found⟩

theorem negotiate_apart {server : Url} {known : List SupportedVersion} {texts : List String}
    (apart : ∀ v ∈ known, ¬ Negotiation.Advertises texts v.version) :
    negotiate settings server known texts = .error (.noCommonVersion server.text texts) := by
  rw [negotiate, Negotiation.settle, Negotiation.choose_eq_none.mpr apart]
  rfl

theorem connect_bound {client : Client}
    (connected : ((connect settings).run.run (InMemory.answer now outside) m).1 = .ok client) :
    ∃ server known supports, Url.parse settings.serverUrl = .ok server ∧
      settings.catalog.supportedVersions = .ok known ∧
      m.Offers now outside server settings.config.cacheMaxAge
        (some settings.config.requestTimeout) supports ∧
      negotiate settings server known supports.versions = .ok client := by
  cases parsed : Url.parse settings.serverUrl with
  | error fault =>
    rw [connect_unparsed parsed] at connected
    contradiction
  | ok server =>
    cases listed : settings.catalog.supportedVersions with
    | error fault =>
      rw [connect_unlisted parsed listed] at connected
      contradiction
    | ok known =>
      by_cases cached : ∃ held, m.Fresh now server settings.config.cacheMaxAge held
      · obtain ⟨held, fresh⟩ := cached
        rw [(connect_cached now outside m parsed listed fresh).1] at connected
        exact ⟨server, known, held, rfl, rfl, .inl fresh, connected⟩
      · have stale := not_exists.mp cached
        rw [(connect_fetched now outside m parsed listed stale).1] at connected
        cases said : m.said outside server (some settings.config.requestTimeout) with
        | error failure =>
          rw [said] at connected
          contradiction
        | ok supports =>
          rw [said] at connected
          exact ⟨server, known, supports, rfl, rfl, .inr ⟨stale, said⟩, connected⟩

theorem tokens_connect :
    ((connect settings).run.run (InMemory.answer now outside) m).2.tokens = m.tokens := by
  cases parsed : Url.parse settings.serverUrl with
  | error fault =>
    rw [connect_unparsed parsed]
    rfl
  | ok server =>
    cases listed : settings.catalog.supportedVersions with
    | error fault =>
      rw [connect_unlisted parsed listed]
      rfl
    | ok known => rw [connect_listed parsed listed, Procedure.run_read, tokens_discover]

theorem connect_requests :
    let requests :=
      ((connect settings).run.transcript (InMemory.answer now outside) m).filterMap Exchange.sent?
    requests = [] ∨ ∃ server command, requests = [command] ∧
      Url.parse settings.serverUrl = .ok server ∧
      (∀ held, ¬ m.Fresh now server settings.config.cacheMaxAge held) ∧
      Endpoint.versions.build server = .ok command := by
  cases parsed : Url.parse settings.serverUrl with
  | error fault =>
    rw [connect_unparsed parsed]
    exact .inl rfl
  | ok server =>
    cases listed : settings.catalog.supportedVersions with
    | error fault =>
      rw [connect_unlisted parsed listed]
      exact .inl rfl
    | ok known =>
      by_cases cached : ∃ held, m.Fresh now server settings.config.cacheMaxAge held
      · obtain ⟨held, fresh⟩ := cached
        exact .inl (connect_cached now outside m parsed listed fresh).2
      · have stale := not_exists.mp cached
        rw [(connect_fetched now outside m parsed listed stale).2]
        cases built : Endpoint.versions.build server with
        | error failure => exact .inl rfl
        | ok command => exact .inr ⟨server, command, rfl, rfl, stale, built⟩

end Promises

/-- Whatever the cache holds and the world answers: a client that comes back is bound to the best
    version of those that the server offers, with exactly the features of its lineage; the only
    request is that for the versions, without a token, and only if the cache holds nothing fresh; a
    malformed address or catalog is found before anything is done; and without a common version both
    sides are named. -/
theorem connect_promises (settings : Settings) (m : InMemory σ) :
    let maxAge := settings.config.cacheMaxAge
    let timeout := some settings.config.requestTimeout
    let run := (connect settings).run.run (InMemory.answer now outside) m
    let transcript := (connect settings).run.transcript (InMemory.answer now outside) m
    let requests := transcript.filterMap Exchange.sent?
    (∀ client, run.1 = .ok client → ∃ server known supports,
      Url.parse settings.serverUrl = .ok server ∧
      settings.catalog.supportedVersions = .ok known ∧
      m.Offers now outside server maxAge timeout supports ∧
      client.server = server ∧ Negotiation.Best known supports.versions client.version ∧
      ∀ f, f ∈ client.features ↔ settings.catalog.Provides client.version.identifier f) ∧
    requests.length ≤ 1 ∧
    (∀ command ∈ requests, ∃ server, Url.parse settings.serverUrl = .ok server ∧
      (∀ held, ¬ m.Fresh now server maxAge held) ∧
      server.withSegments? ["_matrix", "client", "versions"] = some command.url ∧
      command.method = "GET" ∧ command.body = none ∧ command.headers = .empty ∧
      command.bearer? = none ∧ command.requiresAuth = false) ∧
    (∀ fault, Url.parse settings.serverUrl = .error fault →
      run = (.error (.invalidUrl fault), m) ∧ transcript = []) ∧
    (∀ server fault, Url.parse settings.serverUrl = .ok server →
      settings.catalog.supportedVersions = .error fault →
      run = (.error (.catalog fault), m) ∧ transcript = []) ∧
    ∀ server known supports, Url.parse settings.serverUrl = .ok server →
      settings.catalog.supportedVersions = .ok known →
      m.Offers now outside server maxAge timeout supports →
      (∀ v ∈ known, ¬ Negotiation.Advertises supports.versions v.version) →
      run.1 = .error (.noCommonVersion server.text supports.versions) := by
  intro maxAge timeout run transcript requests
  refine ⟨?bound, ?once, ?request, ?unparsed, ?unlisted, ?apart⟩
  case bound =>
    intro client connected
    obtain ⟨server, known, supports, parsed, listed, offers, negotiated⟩ :=
      connect_bound now outside settings m connected
    exact ⟨server, known, supports, parsed, listed, offers, negotiate_bound settings negotiated⟩
  case once =>
    obtain unsent | ⟨server, command, one, -⟩ := connect_requests now outside settings m
    · simp [requests, transcript, unsent]
    · simp [requests, transcript, one]
  case request =>
    intro command mem
    obtain unsent | ⟨server, command', one, parsed, stale, built⟩ :=
      connect_requests now outside settings m
    · rw [show requests = [] from unsent] at mem
      contradiction
    · rw [show requests = [command'] from one] at mem
      obtain rfl := List.mem_singleton.mp mem
      exact ⟨server, parsed, stale, versions_request server built⟩
  case unparsed =>
    intro fault unparsed
    simp only [run, transcript, connect_unparsed unparsed]
    exact ⟨rfl, rfl⟩
  case unlisted =>
    intro server fault parsed unlisted
    simp only [run, transcript, connect_unlisted parsed unlisted]
    exact ⟨rfl, rfl⟩
  case apart =>
    intro server known supports parsed listed offers apart
    exact (connect_offered now outside m parsed listed offers).trans (negotiate_apart settings apart)

section Samples

theorem negotiate_builtin (settings : Settings) (builtin : settings.catalog = .builtin)
    {texts : List String} {version : SupportedVersion}
    (settled : Negotiation.settle Url.hs.text Catalog.builtinVersions texts = .ok version)
    (capable : (Catalog.builtin.capabilities version.identifier).toOption.isSome = true) :
    ∃ client, negotiate settings .hs Catalog.builtinVersions texts = .ok client ∧
      client.version = version := by
  cases found : Catalog.builtin.capabilities version.identifier with
  | error fault => simp [found, Except.toOption] at capable
  | ok features =>
    refine ⟨⟨.hs, version, features, settings.refreshBuilder, settings.config⟩, ?_, rfl⟩
    rw [negotiate, settled, builtin]
    simp only [bind, Except.bind, found, Except.mapError]

theorem negotiate_listed (settings : Settings) (builtin : settings.catalog = .builtin) :
    ∃ client, negotiate settings .hs Catalog.builtinVersions ["v1.1"] = .ok client ∧
      client.version = .canonical ⟨1, 1⟩ :=
  negotiate_builtin settings builtin (by cbv) (by decide +kernel)

def patient (maxAge : Nat) : Settings :=
  let settings := Settings.ofUrl "http://hs"
  { settings with config := { settings.config with cacheMaxAge := some maxAge } }

theorem parse_patient (maxAge : Nat) : Url.parse (patient maxAge).serverUrl = .ok .hs := Url.parse_hs

theorem listed_patient (maxAge : Nat) :
    (patient maxAge).catalog.supportedVersions = .ok Catalog.builtinVersions := by
  rw [show (patient maxAge).catalog = .builtin from rfl]
  exact Catalog.listed_builtin

def higher : ServerSupports := ⟨["v1.2"], .empty⟩

def storedAtFive : InMemory Unit :=
  ⟨.empty, ⟨.insert .empty (cacheKey Url.hs.text) (higher, 5)⟩, ()⟩

theorem fresh_at_seven {maxAge : Nat} {held : ServerSupports} :
    storedAtFive.Fresh (fun _ => 7) .hs (some maxAge) held ↔ held = higher ∧ 2 < maxAge := by
  simp only [InMemory.Fresh, storedAtFive, Dictionary.find?_insert, if_true, Option.some.injEq,
    Prod.mk.injEq, forall_eq']
  constructor
  · rintro ⟨stored, ⟨rfl, rfl⟩, young⟩
    exact ⟨rfl, young⟩
  · rintro ⟨rfl, young⟩
    exact ⟨5, ⟨rfl, rfl⟩, young⟩

/-- What comes of connecting at moment 7 to a server that makes one reply, and what is sent. -/
def atSeven (reply : Except Failure Response) (maxAge : Nat) :
    Except Failure Client × List Command :=
  let around := InMemory.answer (fun _ => 7) (replying reply)
  (((connect (patient maxAge)).run.run around storedAtFive).1,
    ((connect (patient maxAge)).run.transcript around storedAtFive).filterMap Exchange.sent?)

theorem at_seven_fetched (reply : Except Failure Response) :
    ∃ command, atSeven reply 2 =
      (reply >>= (fun response => response.decode ServerSupports.ofBytes?) >>= fun supports =>
        negotiate (patient 2) .hs Catalog.builtinVersions supports.versions, [command]) := by
  have stale : ∀ held, ¬ storedAtFive.Fresh (fun _ => 7) .hs (some 2) held := fun held fresh =>
    absurd (fresh_at_seven.mp fresh).2 (by decide)
  obtain ⟨answered, sent⟩ := connect_fetched (fun _ => 7) (replying reply) storedAtFive
    (parse_patient 2) (listed_patient 2) stale
  obtain ⟨command, built⟩ := versions_built .hs rfl
  have said : storedAtFive.said (replying reply) .hs (some (patient 2).config.requestTimeout) =
      reply >>= fun response => response.decode ServerSupports.ofBytes? := by
    simp only [InMemory.said, built, replying, bind, Except.bind]
  refine ⟨command, ?_⟩
  rw [atSeven, answered, sent, said, built]
  rfl

/-- A description of age 2 is enough for one who takes it at that age, and a server that cannot be
    reached is not asked. For one who does not, the server is asked: its failure comes back, or it is
    the versions that it lists now that count. -/
theorem stored_description_connects :
    storedAtFive.Fresh (fun _ => 7) .hs (some 3) higher ∧
      (∃ client, atSeven (.error (.transport .http)) 3 = (.ok client, []) ∧
        client.version = .canonical ⟨1, 2⟩) ∧
      (∃ command, atSeven (.error (.transport .http)) 2 = (.error (.transport .http), [command])) ∧
      ∃ client command, atSeven (.ok .listing) 2 = (.ok client, [command]) ∧
        client.version = .canonical ⟨1, 1⟩ := by
  have fresh : storedAtFive.Fresh (fun _ => 7) .hs (some 3) higher :=
    fresh_at_seven.mpr ⟨rfl, by decide⟩
  refine ⟨fresh, ?_, at_seven_fetched _, ?_⟩
  · have settled : Negotiation.settle Url.hs.text Catalog.builtinVersions higher.versions =
        .ok (.canonical ⟨1, 2⟩) := by cbv
    obtain ⟨client, negotiated, highest⟩ :=
      negotiate_builtin (patient 3) rfl settled (by decide +kernel)
    obtain ⟨-, -, request, -⟩ := connect_promises (fun _ => 7)
      (replying (.error (.transport .http))) (patient 3) storedAtFive
    have connected := connect_offered (fun _ => 7) (replying (.error (.transport .http)))
      storedAtFive (parse_patient 3) (listed_patient 3) (.inl fresh)
    have quiet : ((connect (patient 3)).run.transcript (InMemory.answer (fun _ => 7)
        (replying (.error (.transport .http)))) storedAtFive).filterMap Exchange.sent? = [] := by
      refine List.eq_nil_iff_forall_not_mem.mpr fun command mem => ?_
      obtain ⟨server, parsed, stale, -⟩ := request command mem
      obtain rfl := Except.ok.inj ((parse_patient 3).symm.trans parsed)
      exact stale _ fresh
    refine ⟨client, ?_, highest⟩
    rw [atSeven, connected, negotiated, quiet]
  · obtain ⟨client, negotiated, lower⟩ := negotiate_listed (patient 2) rfl
    obtain ⟨command, asked⟩ := at_seven_fetched (.ok .listing)
    have told : (Except.ok Response.listing >>= fun response =>
        response.decode ServerSupports.ofBytes?) = Except.ok .listed := Response.listing_read
    rw [told] at asked
    exact ⟨client, command, asked.trans (congrArg (·, [command]) negotiated), lower⟩

end Samples

end Client

end MatrixSession
