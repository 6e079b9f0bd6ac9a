import MatrixSession.Proofs.Discovery.Basic
import MatrixSession.Proofs.Transcript
import MatrixSession.Scenario.CacheStep

/-!
What the cache holds during a run of queries, look-ups, and changes by hand. Under each key it holds what
was put there last, unless that has been dropped since. A query either repeats what is held or asks the
server once, and only an answer that can be read changes anything.
-/
namespace MatrixSession.Scenario

/-- The steps of a run with their results, the last one first. -/
abbrev CachePast := List (CacheStep × Except Failure (Option ServerSupports))

/-- What was put under a key last, by hand or by a query, unless it has been dropped since. `initial`
    is what was there before the run. -/
def CachePast.latest? (initial : String → Option ServerSupports) (key : String) :
    CachePast → Option ServerSupports
  | [] => initial key
  | (.set other supports, _) :: past =>
    if other = key then some supports else latest? initial key past
  | (.query server _ _, .ok (some supports)) :: past =>
    if cacheKey server.text = key then some supports else latest? initial key past
  | (.invalidate other, _) :: past => if other = key then none else latest? initial key past
  | (.clear, _) :: _ => none
  | _ :: past => latest? initial key past

namespace World

section Query

variable (w : World) (server : Url) (maxAge timeout : Option Nat)

def asked : List Command :=
  ((discover server maxAge timeout).run.transcript (World.answer 0) w).filterMap Exchange.sent?

def advertised (command : Command) : Except Failure ServerSupports :=
  (World.answer 0 (.send command ⟨true, timeout⟩) w).1 >>= fun response =>
    response.decode ServerSupports.ofBytes?

/-- The query sends this command alone, which asks for the versions without a token. What goes wrong is
    handed on and leaves the cache as it was; what can be read goes into the cache under the key of the
    server. -/
structure Fetches (command : Command) : Prop where
  alone : w.asked server maxAge timeout = [command]
  get : command.method = "GET"
  versions : server.withSegments? Endpoint.versions.segments = some command.url
  tokenless : command.bearer? = none
  failed : ∀ failure, w.advertised timeout command = .error failure →
    (w.cacheStep (.query server maxAge timeout)).1 = .error failure ∧
      (w.cacheStep (.query server maxAge timeout)).2.cache = w.cache
  fetched : ∀ supports, w.advertised timeout command = .ok supports →
    (w.cacheStep (.query server maxAge timeout)).1 = .ok (some supports) ∧
      ∀ key, (w.cacheStep (.query server maxAge timeout)).2.cache.held? key =
        if cacheKey server.text = key then some supports else w.cache.held? key

theorem cache_reply (command : Command) : (w.reply command).2.cache = w.cache := by
  unfold World.reply
  split
  · rfl
  · cases RequestClass.ofPath command.path <;> rfl

theorem cache_exchange (command : Command) (options : SendOptions) :
    (w.exchange command options).2.cache = w.cache := by
  have recorded (e : Event) : ((w.record e).reply command).2.cache = w.cache :=
    cache_reply (w.record e) command
  unfold World.exchange
  cases w.link with
  | direct => exact recorded _
  | http listening =>
    cases Http.Request.ofCommand? command with
    | none => rfl
    | some request =>
      cases listening with
      | false => rfl
      | true => exact recorded _

variable {w server maxAge timeout}

theorem query_shown {supports : ServerSupports}
    (shown : w.cache.lookup 0 (cacheKey server.text) maxAge = some supports) :
    w.cacheStep (.query server maxAge timeout) = (.ok (some supports), w) ∧
      w.asked server maxAge timeout = [] := by
  have told : World.answer 0 (.consult (cacheKey server.text) maxAge) w = (some supports, w) :=
    congrArg (·, w) shown
  constructor
  · rw [cacheStep, World.perform, discover_steps, Procedure.run, told]
    rfl
  · rw [asked, discover_steps, Procedure.transcript, told]
    rfl

section Missing

variable (timeout) (missing : w.cache.lookup 0 (cacheKey server.text) maxAge = none)
include missing

theorem query_missing :
    w.cacheStep (.query server maxAge timeout) =
        (((fetching server timeout).run (World.answer 0) w).1.map some,
          ((fetching server timeout).run (World.answer 0) w).2) ∧
      w.asked server maxAge timeout =
        ((fetching server timeout).transcript (World.answer 0) w).filterMap Exchange.sent? := by
  have told : World.answer 0 (.consult (cacheKey server.text) maxAge) w = (none, w) :=
    congrArg (·, w) missing
  constructor
  · rw [cacheStep, World.perform, discover_steps, Procedure.run, told]
  · rw [asked, discover_steps, Procedure.transcript, told]
    rfl

theorem query_unbuilt {failure : Failure}
    (unbuilt : Endpoint.versions.build server = .error failure) :
    w.cacheStep (.query server maxAge timeout) = (.error failure, w) ∧
      w.asked server maxAge timeout = [] := by
  obtain ⟨result, requests⟩ := query_missing timeout missing
  rw [result, requests, fetching, unbuilt]
  exact ⟨rfl, rfl⟩

theorem query_fetches {command : Command}
    (built : Endpoint.versions.build server = .ok command) :
    w.Fetches server maxAge timeout command := by
  obtain ⟨result, requests⟩ := query_missing timeout missing
  obtain ⟨versions, get, -, -, tokenless, -⟩ := versions_request server built
  rcases told : World.answer 0 (.send command ⟨true, timeout⟩) w with ⟨reply, w'⟩
  have kept : w'.cache = w.cache := by
    have same := cache_exchange w command ⟨true, timeout⟩
    rwa [show (w.exchange command ⟨true, timeout⟩).2 = w' from congrArg Prod.snd told] at same
  have said : w.advertised timeout command = reply >>= fun response =>
      response.decode ServerSupports.ofBytes? := by
    rw [advertised, told]
  refine ⟨?alone, get, versions, tokenless, ?failed, ?fetched⟩
  case alone =>
    rw [requests, fetching, built]
    simp only [Procedure.transcript, told]
    cases reply with
    | error failure => rfl
    | ok response =>
      dsimp only
      cases response.decode ServerSupports.ofBytes? <;> rfl
  case failed =>
    intro failure unread
    rw [said] at unread
    rw [result, fetching, built]
    simp only [Procedure.run, told]
    cases reply with
    | error fault =>
      obtain rfl := Except.error.inj unread
      exact ⟨rfl, kept⟩
    | ok response =>
      have unread : response.decode ServerSupports.ofBytes? = .error failure := unread
      simp only [unread, Procedure.run]
      exact ⟨rfl, kept⟩
  case fetched =>
    intro supports read
    rw [said] at read
    rw [result, fetching, built]
    simp only [Procedure.run, told]
    cases reply with
    | error fault => contradiction
    | ok response =>
      have read : response.decode ServerSupports.ofBytes? = .ok supports := read
      simp only [read, Procedure.run]
      refine ⟨rfl, fun key => ?_⟩
      rw [← kept]
      exact w'.cache.held_store 0 _ key supports

end Missing

end Query

section Runs

theorem latest_step {initial : String → Option ServerSupports} {past : CachePast} {w : World}
    (coherent : ∀ key, w.cache.held? key = past.latest? initial key) (step : CacheStep) (key : String) :
    (w.cacheStep step).2.cache.held? key =
      CachePast.latest? initial key ((step, (w.cacheStep step).1) :: past) := by
  cases step with
  | get other maxAge => exact coherent key
  | set other supports =>
    rw [CachePast.latest?, ← coherent]
    exact w.cache.held_store 0 other key supports
  | invalidate other =>
    rw [CachePast.latest?, ← coherent]
    exact w.cache.held_invalidate other key
  | clear => rfl
  | query server maxAge timeout =>
    cases shown : w.cache.lookup 0 (cacheKey server.text) maxAge with
    | some supports =>
      rw [(query_shown shown).1, CachePast.latest?, ← coherent]
      split
      · rename_i same
        rw [← same]
        exact VersionCache.held_of_lookup shown
      · rfl
    | none =>
      cases built : Endpoint.versions.build server with
      | error failure =>
        rw [(query_unbuilt timeout shown built).1]
        exact coherent key
      | ok command =>
        have fetches := query_fetches timeout shown built
        cases said : w.advertised timeout command with
        | error failure =>
          obtain ⟨result, kept⟩ := fetches.failed failure said
          rw [result, kept]
          exact coherent key
        | ok supports =>
          obtain ⟨result, stored⟩ := fetches.fetched supports said
          rw [result, stored, CachePast.latest?, ← coherent]

theorem latest_run {initial : String → Option ServerSupports} {past : CachePast} {w : World}
    (coherent : ∀ key, w.cache.held? key = past.latest? initial key) (steps : List CacheStep)
    (key : String) :
    (cacheRun steps w).2.cache.held? key =
      CachePast.latest? initial key ((steps.zip (cacheRun steps w).1).reverse ++ past) := by
  induction steps generalizing w past with
  | nil => exact coherent key
  | cons step steps ih =>
    have later := ih (latest_step coherent step)
    rw [cacheRun]
    simpa using later

end Runs

/-- After any run, the cache holds under each key what was put there last. A look-up changes nothing.
    A query that accepts any age repeats what is held; one that does not, or for which nothing is held,
    asks the server, unless the address takes no path, which is found before anything is sent. -/
theorem cache_stays_coherent (w : World) (before : List CacheStep) :
    let now := (cacheRun before w).2
    let past : CachePast := (before.zip (cacheRun before w).1).reverse
    let latest? (key : String) := past.latest? w.cache.held? key
    (∀ key, now.cache.held? key = latest? key) ∧
    (∀ key maxAge, (now.cacheStep (.get key maxAge)).2 = now ∧
      (now.cacheStep (.get key none)).1 = .ok (latest? key)) ∧
    ∀ server timeout,
      (∀ supports, latest? (cacheKey server.text) = some supports →
        now.cacheStep (.query server none timeout) = (.ok (some supports), now) ∧
          now.asked server none timeout = []) ∧
      ∀ maxAge, maxAge = some 0 ∨ maxAge = none ∧ latest? (cacheKey server.text) = none →
        (∀ segments, server.path = .segments segments →
          ∃ command, now.Fetches server maxAge timeout command) ∧
        ∀ text, server.path = .plain text →
          now.cacheStep (.query server maxAge timeout) =
              (.error (.invalidUrl .cannotBeBase), now) ∧
            now.asked server maxAge timeout = [] := by
  intro now past latest?
  have coherent (key : String) : now.cache.held? key = latest? key := by
    have initial (key : String) : w.cache.held? key = CachePast.latest? w.cache.held? key [] := rfl
    have all := latest_run initial before key
    rwa [List.append_nil] at all
  have lookup (key : String) : now.cache.lookup 0 key none = latest? key := by
    rw [VersionCache.lookup_any_age, coherent]
  refine ⟨coherent, fun key maxAge => ⟨rfl, congrArg Except.ok (lookup key)⟩, ?_⟩
  intro server timeout
  refine ⟨fun supports held => query_shown ((lookup _).trans held), ?_⟩
  intro maxAge stale
  have missing : now.cache.lookup 0 (cacheKey server.text) maxAge = none := by
    obtain rfl | ⟨rfl, nothing⟩ := stale
    · exact now.cache.lookup_no_age 0 _
    · exact (lookup _).trans nothing
  constructor
  · intro segments path
    obtain ⟨command, built⟩ := versions_built server path
    exact ⟨command, query_fetches timeout missing built⟩
  · intro text path
    exact query_unbuilt timeout missing (versions_unbuilt server path)

def untouched : World where
  link := .direct
  tokens := .empty
  valid := none
  replies := ⟨[], [], []⟩
  lockTurns := []
  locks := .empty
  cache := .empty
  events := []

def mailbox : Url := ⟨"mailto", none, false, .plain "a@b", none, none⟩

/-- Not every query for which nothing is held asks a server: an address that takes no path has none. -/
theorem unaddressed_query_asks_nobody :
    Url.parse "mailto:a@b" = .ok mailbox ∧
      (untouched.cacheStep (.query mailbox none none)).1 = .error (.invalidUrl .cannotBeBase) ∧
      ¬ ∀ (w : World) (server : Url) (maxAge timeout : Option Nat),
        maxAge = some 0 ∨ maxAge = none ∧ w.cache.held? (cacheKey server.text) = none →
          ∃ command, w.asked server maxAge timeout = [command] := by
  have missing := VersionCache.held_empty (cacheKey mailbox.text)
  obtain ⟨result, nothing⟩ := query_unbuilt none
    ((untouched.cache.lookup_any_age 0 _).trans missing) (versions_unbuilt mailbox rfl)
  refine ⟨rfl, congrArg Prod.fst result, fun all => ?_⟩
  obtain ⟨command, asked⟩ := all untouched mailbox none none (.inr ⟨rfl, missing⟩)
  rw [nothing] at asked
  contradiction

end World

end MatrixSession.Scenario
