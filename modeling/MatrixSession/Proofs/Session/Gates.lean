import MatrixSession.Proofs.Session.Helpers

/-!
Gates. Some endpoints ask for a feature, and one of them for a version as well. A client sends a request
to such an endpoint only if it has what the endpoint asks for.
-/
namespace MatrixSession

/-- What stands behind the last slash of the path. -/
def Command.target (c : Command) : List Char := (c.path.toList.reverse.takeWhile (· ≠ '/')).reverse

namespace Endpoint

def lastSegment : Endpoint → String
  | versions => "versions"
  | refresh _ => "refresh"
  | whoami => "whoami"
  | createRoom _ => "createRoom"
  | roomInfo _ => "hierarchy"
  | roomMembers _ => "joined_members"
  | roomTopic .. => "m.room.topic"
  | invite .. => "invite"
  | mediaCreate => "create"

def lastSegments : List String :=
  ["versions", "refresh", "whoami", "createRoom", "hierarchy", "joined_members", "m.room.topic",
    "invite", "create"]

theorem last_mem (e : Endpoint) : e.lastSegment ∈ lastSegments := by
  cases e <;> simp [lastSegment, lastSegments]

theorem slashless_last : ∀ name ∈ lastSegments, '/' ∉ name.toList := by decide

theorem dotless_last : ∀ name ∈ lastSegments, name ≠ "." ∧ name ≠ ".." := by decide

theorem step_last : ∀ name ∈ lastSegments, ∀ special top : Bool,
    Url.Step.ofSegment (if special then .specialSegment else .segment) top name.toList =
      .enter name := by
  decide

theorem segments_end (e : Endpoint) : ∃ front, e.segments = front ++ [e.lastSegment] := by
  have ends : e.segments = e.segments.dropLast ++ [e.lastSegment] := by cases e <;> rfl
  exact ⟨_, ends⟩

end Endpoint

section Targets

variable {e : Endpoint} {server : Url} {command : Command}

theorem Command.target_of_path (front : List Char) {name : String}
    (ends : command.path.toList = front ++ '/' :: name.toList) (plain : '/' ∉ name.toList) :
    command.target = name.toList := by
  have whole : ∀ c ∈ name.toList.reverse, decide (c ≠ '/') = true := by
    intro c mem
    have inside := List.mem_reverse.mp mem
    simp only [decide_eq_true_eq]
    rintro rfl
    exact plain inside
  rw [target, ends, List.reverse_append, List.reverse_cons, List.append_assoc,
    List.takeWhile_append_of_pos whole]
  simp

theorem Endpoint.push_last (e : Endpoint) (scheme : String) (place : List String) :
    ∃ front, Url.pushSegment scheme place e.lastSegment = front ++ [e.lastSegment] := by
  refine ⟨if place = [""] then [] else place, ?_⟩
  have step := step_last _ e.last_mem (Url.isSpecial scheme)
    (scheme == "file" && (if place = [""] then [] else place).isEmpty)
  simp only [Url.pushSegment, step]
  rfl

theorem Endpoint.extended_path {url : Url} (extended : server.withSegments? e.segments = some url) :
    ∃ front, url.path.text.toList = front ++ '/' :: e.lastSegment.toList := by
  obtain ⟨front, ends⟩ := e.segments_end
  rw [ends] at extended
  have kept : ([e.lastSegment].filter fun s => s ≠ "." ∧ s ≠ "..") = [e.lastSegment] := by
    simp [dotless_last _ e.last_mem]
  unfold Url.withSegments? at extended
  split at extended
  · contradiction
  · obtain rfl := Option.some.inj extended
    simp only [List.filter_append, kept, List.foldl_append, List.foldl_cons, List.foldl_nil]
    obtain ⟨place, pushed⟩ := e.push_last server.scheme _
    rw [pushed]
    refine ⟨(String.join (place.map ("/" ++ ·))).toList, ?_⟩
    simp [Url.Path.text, String.toList_join]

/-- The request to an endpoint can be told by the end of its path, whatever the server's own path is
    and whatever stands in the segments before. -/
theorem Endpoint.target_of_build (built : e.build server = .ok command) :
    command.target = e.lastSegment.toList := by
  have made : e.command server = .ok command := by
    unfold build at built
    cases tried : e.command server with
    | error fault =>
      rw [tried] at built
      contradiction
    | ok c =>
      rw [tried] at built
      exact congrArg Except.ok (Except.ok.inj built)
  obtain ⟨url, query, extended, same⟩ := Endpoint.url_of_command made
  obtain ⟨front, ends⟩ := Endpoint.extended_path extended
  refine Command.target_of_path front ?_ (slashless_last _ e.last_mem)
  rw [Command.path, same]
  exact ends

theorem Command.target_with_bearer (command : Command) (token : String) :
    (command.withBearer token).target = command.target := rfl

end Targets

structure Gate where
  segment : String
  feature : Feature
  version? : Option ApiVersion

def gates : List Gate :=
  [⟨"createRoom", .createRoomV3, none⟩,
    ⟨"hierarchy", .getRoomInfoV1, none⟩,
    ⟨"m.room.topic", .updateRoomTopicV3, none⟩,
    ⟨"invite", .inviteMemberV3, none⟩,
    ⟨"joined_members", .getRoomMembersV3, none⟩,
    ⟨"create", .mediaCreateV1, some ⟨1, 7⟩⟩]

theorem refresh_ungated : ∀ gate ∈ gates, gate.segment ≠ "refresh" := by decide

namespace Gate

variable {gate : Gate} {c : Client} {e : Endpoint}

structure Open (gate : Gate) (c : Client) : Prop where
  versioned : ∀ required, gate.version? = some required → c.MeetsVersion required
  featured : c.features.has gate.feature = true

/-- What is reported at a closed gate: the version if it is too low, else the feature. -/
inductive Refusal (gate : Gate) (c : Client) : Failure → Prop
  | version {required : ApiVersion} (asked : gate.version? = some required)
      (low : ¬ c.MeetsVersion required) :
      Refusal gate c (.versionTooLow required c.version.version)
  | feature (versioned : ∀ required, gate.version? = some required → c.MeetsVersion required)
      (missing : c.features.has gate.feature = false) :
      Refusal gate c (.unsupportedFeature (.one gate.feature))

theorem asks_of_last (mem : gate ∈ gates) (last : gate.segment = e.lastSegment) :
    e.feature? = some gate.feature ∧ e.minVersion? = gate.version? := by
  simp only [gates, List.mem_cons, List.not_mem_nil, or_false] at mem
  obtain rfl | rfl | rfl | rfl | rfl | rfl := mem <;>
    cases e <;> simp [Endpoint.lastSegment, Endpoint.feature?, Endpoint.minVersion?] at last ⊢

theorem implements_iff {f : Feature} : c.Implements (.one f) ↔ c.features.has f = true := by
  simp only [Client.Implements, Requirement.MetBy, Requirement.features, List.mem_singleton,
    exists_eq_left]
  exact Iff.rfl

theorem require_cases (c : Client) (f : Feature) :
    (c.features.has f = true ∧ c.require (.one f) = .ok ()) ∨
      (c.features.has f = false ∧ c.require (.one f) = .error (.unsupportedFeature (.one f))) := by
  cases has : c.features.has f with
  | true => exact .inl ⟨rfl, if_pos (implements_iff.mpr has)⟩
  | false =>
    refine .inr ⟨rfl, if_neg fun implements => ?_⟩
    exact Bool.false_ne_true (has.symm.trans (implements_iff.mp implements))

theorem allow_cases (mem : gate ∈ gates) (last : gate.segment = e.lastSegment) :
    (gate.Open c ∧ c.allow e = .ok ()) ∨
      (¬ gate.Open c ∧ ∃ failure, gate.Refusal c failure ∧ c.allow e = .error failure) := by
  obtain ⟨feature, version⟩ := asks_of_last mem last
  have allowed : c.allow e =
      gate.version?.forM c.requireVersion >>= fun _ => c.require (.one gate.feature) := by
    rw [Client.allow, feature, version]
    rfl
  by_cases versioned : ∀ required, gate.version? = some required → c.MeetsVersion required
  · have passed : gate.version?.forM c.requireVersion = .ok () := by
      cases asked : gate.version? with
      | none => rfl
      | some required => exact if_pos (versioned required asked)
    rw [allowed, passed]
    obtain ⟨has, granted⟩ | ⟨missing, refused⟩ := require_cases c gate.feature
    · exact .inl ⟨⟨versioned, has⟩, granted⟩
    · refine .inr ⟨?_, _, .feature versioned missing, refused⟩
      rintro ⟨-, has⟩
      exact Bool.false_ne_true (missing.symm.trans has)
  · simp only [Classical.not_forall] at versioned
    obtain ⟨required, asked, low⟩ := versioned
    refine .inr ⟨fun opened => low (opened.versioned required asked), _, .version asked low, ?_⟩
    have refused : c.requireVersion required =
        .error (.versionTooLow required c.version.version) := if_neg low
    rw [allowed, asked]
    change (c.requireVersion required >>= fun _ => c.require (.one gate.feature)) = _
    rw [refused]
    rfl

end Gate

namespace Client

variable {σ : Type} (c : Client) (answer : (op : Operation) → σ → op.Reply × σ)

def session (errands : List Errand) : Procedure (List (Except Failure Errand.Yield)) :=
  errands.mapM fun errand => (c.perform errand).run

theorem session_cons (errand : Errand) (errands : List Errand) :
    c.session (errand :: errands) =
      (c.perform errand).run >>= fun result =>
        c.session errands >>= fun results => pure (result :: results) :=
  List.mapM_cons

theorem mem_session {errands : List Errand} {s : σ} {e : Exchange}
    (mem : e ∈ (c.session errands).transcript answer s) :
    ∃ errand ∈ errands, ∃ s', e ∈ (c.perform errand).run.transcript answer s' := by
  induction errands generalizing s with
  | nil => contradiction
  | cons errand errands ih =>
    rw [session_cons, Procedure.transcript_bind, Procedure.transcript_bind, List.mem_append,
      List.mem_append] at mem
    obtain first | later | none := mem
    · exact ⟨errand, List.mem_cons_self, s, first⟩
    · obtain ⟨errand', among, s', inside⟩ := ih later
      exact ⟨errand', List.mem_cons_of_mem _ among, s', inside⟩
    · contradiction

/-- All requests of an errand are its own command, with a token or without, and refresh requests. -/
theorem sent_cases {errand : Errand} {s : σ} {sent : Command}
    (mem : sent ∈ ((c.perform errand).run.transcript answer s).filterMap Exchange.sent?) :
    ∃ command, errand.command? c = .ok command ∧
      (sent.target = command.target ∨ ∃ token, c.refreshBuilder c.server token = .ok sent) := by
  cases prepared : errand.command? c with
  | error failure =>
    rw [(c.perform_unprepared answer errand s prepared).1] at mem
    contradiction
  | ok command =>
    refine ⟨command, rfl, ?_⟩
    obtain ⟨a, asked, -⟩ := execute_course c command answer s
    rw [(c.perform_prepared answer errand s prepared).1, asked, List.filterMap_append,
      List.filterMap_append, Course.sent_opening, Course.sent_locking, Course.sent_closing,
      List.mem_append, List.mem_append] at mem
    obtain first | refresh | replay := mem
    · left
      rw [Option.mem_toList, Course.firstRequest?] at first
      split at first
      · obtain ⟨token, -, rfl⟩ := Option.map_eq_some_iff.mp first
        exact command.target_with_bearer token
      · obtain rfl := Option.some.inj first
        rfl
    · right
      obtain ⟨-, -, spent, -, -, -, built⟩ :=
        Course.refresh_request_eq_some.mp (Option.mem_toList.mp refresh)
      exact ⟨spent, built⟩
    · left
      obtain ⟨token, -, rfl⟩ := List.mem_map.mp replay
      exact command.target_with_bearer token

/-- A request goes to a gated endpoint only through an open gate, unless the client makes refresh
    requests in a way of its own. At a closed gate nothing is done. -/
theorem gates_hold (helpers : List Errand) (calls : ∀ errand ∈ helpers, errand.endpoint?.isSome = true)
    (s : σ) :
    let sent := ((c.session helpers).transcript answer s).filterMap Exchange.sent?
    (∀ gate ∈ gates, ∀ command ∈ sent, command.target = gate.segment.toList →
      gate.Open c ∨ ∃ token, c.refreshBuilder c.server token = .ok command) ∧
    (c.refreshBuilder = .standard →
      ∀ gate ∈ gates, ∀ command ∈ sent, command.target = gate.segment.toList → gate.Open c) ∧
    ∀ gate ∈ gates, ∀ errand e, errand.endpoint? = some e → gate.segment = e.lastSegment →
      (∀ command, errand.command? c = .ok command → command.target = gate.segment.toList) ∧
      (¬ gate.Open c → ∀ s', (c.perform errand).run.transcript answer s' = [] ∧
        ∃ failure, gate.Refusal c failure ∧
          (c.perform errand).run.run answer s' = (.error failure, s')) := by
  intro sent
  have passes : ∀ gate ∈ gates, ∀ command ∈ sent, command.target = gate.segment.toList →
      gate.Open c ∨ ∃ token, c.refreshBuilder c.server token = .ok command := by
    intro gate mem command among reached
    obtain ⟨exchange, inside, asSent⟩ := List.mem_filterMap.mp among
    obtain ⟨errand, helper, s', done⟩ := c.mem_session answer inside
    obtain ⟨e, endpoint⟩ := Option.isSome_iff_exists.mp (calls errand helper)
    obtain ⟨own, prepared, same | refresh⟩ :=
      c.sent_cases answer (List.mem_filterMap.mpr ⟨exchange, done, asSent⟩)
    · left
      rw [errand.command_of_helper c endpoint] at prepared
      have target := Endpoint.target_of_build (built_of_prepare prepared)
      rw [same, target] at reached
      have last : gate.segment = e.lastSegment := (String.toList_inj.mp reached).symm
      obtain ⟨opened, -⟩ | ⟨-, failure, -, refused⟩ := Gate.allow_cases (c := c) mem last
      · exact opened
      · rw [prepare, refused] at prepared
        contradiction
    · exact .inr refresh
  refine ⟨passes, ?_, ?_⟩
  · intro standard gate mem command among reached
    refine (passes gate mem command among reached).resolve_right ?_
    rintro ⟨token, built⟩
    rw [standard] at built
    have target := Endpoint.target_of_build (e := .refresh token) built
    exact refresh_ungated gate mem (String.toList_inj.mp (reached.symm.trans target))
  · intro gate mem errand e endpoint last
    have prepared := errand.command_of_helper c endpoint
    refine ⟨?_, ?_⟩
    · intro command made
      rw [prepared] at made
      rw [Endpoint.target_of_build (built_of_prepare made), last]
    · intro closed s'
      obtain ⟨opened, -⟩ | ⟨-, failure, refusal, refused⟩ := Gate.allow_cases (c := c) mem last
      · exact absurd opened closed
      · have unprepared : errand.command? c = .error failure := by
          rw [prepared, prepare, refused]
          rfl
        obtain ⟨nothing, unchanged⟩ := c.perform_unprepared answer errand s' unprepared
        have result := c.perform_result answer errand s'
        rw [unprepared] at result
        exact ⟨nothing, failure, refusal, Prod.ext result unchanged⟩

section Samples

open Scenario

def roomMaker : Client := { sample with features := .ofList [.refreshTokenV3, .createRoomV3] }

theorem room_maker_gates :
    let helpers : List Errand := [.createRoom (.room "x"), .createMedia]
    let sent := ((roomMaker.session helpers).transcript (World.answer 0)
      World.expired).filterMap Exchange.sent?
    let media : Gate := ⟨"create", .mediaCreateV1, some ⟨1, 7⟩⟩
    (∀ errand ∈ helpers, errand.endpoint?.isSome = true) ∧
      sent.map Command.target = ["createRoom".toList, "refresh".toList, "createRoom".toList] ∧
      (∀ gate ∈ gates, ∀ command ∈ sent, command.target = gate.segment.toList →
        gate.Open roomMaker) ∧
      ¬ media.Open roomMaker ∧
      ∃ failure, media.Refusal roomMaker failure ∧
        (roomMaker.perform .createMedia).run.run (World.answer 0) World.expired =
          (.error failure, World.expired) := by
  intro helpers sent media
  have calls : ∀ errand ∈ helpers, errand.endpoint?.isSome = true := by
    simp [helpers, Errand.endpoint?]
  have targets : sent.map Command.target =
      ["createRoom".toList, "refresh".toList, "createRoom".toList] := by decide +kernel
  have closed : ¬ media.Open roomMaker := by
    rintro ⟨-, has⟩
    exact absurd has (by decide)
  obtain ⟨-, passes, waits⟩ := gates_hold roomMaker (World.answer 0) helpers calls World.expired
  obtain ⟨-, nothing⟩ := waits media (by simp [gates, media]) .createMedia .mediaCreate rfl rfl
  exact ⟨calls, targets, passes rfl, closed, (nothing closed World.expired).2⟩

def roomSpender : Client :=
  { sample with refreshBuilder := fun server _ => (Endpoint.createRoom (.room "x")).build server }

theorem own_refresh_passes_gate :
    let sent := ((roomSpender.session [.whoami]).transcript (World.answer 0)
      World.expired).filterMap Exchange.sent?
    roomSpender.features.has .createRoomV3 = false ∧
      sent.map Command.target = ["whoami".toList, "createRoom".toList] := by
  decide +kernel

end Samples

end Client

end MatrixSession
