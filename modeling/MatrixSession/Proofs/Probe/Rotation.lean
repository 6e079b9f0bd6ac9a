import MatrixSession.Probe
import MatrixSession.Proofs.Connection.Promises
import MatrixSession.Scenario.World

/-!
What becomes of renewed tokens when a probe ends. They live in its memory only, so they are lost
unless the report shows them. The report does so if the access token is another one than at the
start and the question after its user was settled; in all other cases renewed tokens are lost.
-/
namespace MatrixSession.Probe

variable {σ : Type} (now : σ → Nat) (outside : (op : Operation) → σ → op.Reply × σ)

def runIn (p : Probe) (world : σ) : Except Trouble Json.Value × InMemory σ :=
  p.report.run (InMemory.answer now outside) ⟨p.tokens, .empty, world⟩

def shown (pair : TokenPair) : Json.Value :=
  .ofMembers
    [("access_token", textOrNull pair.access), ("refresh_token", textOrNull pair.refresh)]

def Shows (outcome : Except Trouble Json.Value) (pair : TokenPair) : Prop :=
  ∃ report, outcome = .ok report ∧ report.member? "refreshed_tokens" = some (shown pair)

/-- The question after the user of the token has an answer that is a user id, or the session is
    found to have expired. -/
def Settled (c : Client) (answered : Except Failure String) : Prop :=
  (∃ name id, answered = .ok name ∧ UserId.qualify name c.server = .ok id) ∨
    answered = .error .authExpired

def withUser (c : Client) (report : Json.Value) :
    Except Failure String → Except Trouble Json.Value
  | .ok name =>
    match UserId.qualify name c.server with
    | .ok id => .ok (report.withMember "user_id" (.string id))
    | .error fault => .error (.userId fault)
  | .error .authExpired => .ok report
  | .error failure => .error (.whoami failure)

section Runs

variable (m : InMemory σ) (c : Client) (report : Json.Value)

theorem run_add_user :
    (addUser c report).run (InMemory.answer now outside) m =
      (withUser c report (c.whoami.run.run (InMemory.answer now outside) m).1,
        (c.whoami.run.run (InMemory.answer now outside) m).2) := by
  rw [addUser, Procedure.run_bind]
  cases (c.whoami.run.run (InMemory.answer now outside) m).1 with
  | ok name => rfl
  | error failure => cases failure <;> rfl

theorem run_add_tokens (p : Probe) :
    (p.addTokens report).run (InMemory.answer now outside) m =
      (if m.tokens.access = p.tokens.access then report
        else report.withMember "refreshed_tokens" (shown m.tokens), m) := by
  rw [addTokens, Procedure.run_bind]
  change Procedure.run _ (if m.tokens.access = p.tokens.access then _ else _) m = _
  split
  · rfl
  · rfl

end Runs

theorem plain_report (c : Client) :
    ∃ members, describe c = .object members ∧ findKey? "refreshed_tokens" members = none := by
  refine ⟨_, rfl, ?_⟩
  simp only [List.foldl_cons, List.foldl_nil, findKey?_insertEntry]
  rfl

theorem settled_report {c : Client} {answered : Except Failure String}
    (settled : Settled c answered) :
    ∃ members, withUser c (describe c) answered = .ok (.object members) ∧
      findKey? "refreshed_tokens" members = none := by
  obtain ⟨members, plain, hidden⟩ := plain_report c
  obtain ⟨name, id, rfl, qualified⟩ | rfl := settled
  · refine ⟨insertEntry "user_id" (.string id) members, ?_, ?_⟩
    · rw [withUser, qualified, plain]
      rfl
    · rw [findKey?_insertEntry, if_neg (by decide), hidden]
  · exact ⟨members, by rw [withUser, plain], hidden⟩

theorem unsettled_report {c : Client} {answered : Except Failure String} (report : Json.Value)
    (unsettled : ¬ Settled c answered) : ∃ trouble, withUser c report answered = .error trouble := by
  cases answered with
  | ok name =>
    cases qualified : UserId.qualify name c.server with
    | ok id => exact absurd (.inl ⟨name, id, rfl, qualified⟩) unsettled
    | error fault => exact ⟨.userId fault, by rw [withUser, qualified]⟩
  | error failure =>
    refine ⟨.whoami failure, ?_⟩
    cases failure with
    | authExpired => exact absurd (.inr rfl) unsettled
    | _ => rfl

section Endings

variable {now outside} {p : Probe} {world : σ} {m : InMemory σ} {client : Client}

theorem run_unconnected {failure : Failure}
    (connected : (Client.connect p.settings).run.run (InMemory.answer now outside)
      ⟨p.tokens, .empty, world⟩ = (.error failure, m)) :
    p.runIn now outside world = (.error (.negotiating p.server failure), m) := by
  rw [runIn, report, Procedure.run_bind, connected]
  rfl

theorem run_unasked
    (connected : (Client.connect p.settings).run.run (InMemory.answer now outside)
      ⟨p.tokens, .empty, world⟩ = (.ok client, m))
    (absent : p.tokens.access = none) :
    p.runIn now outside world = (.ok (describe client), m) := by
  rw [runIn, report, Procedure.run_bind, connected]
  simp only [absent]
  rfl

theorem run_asked {token : String} {answered : Except Failure String} {m' : InMemory σ}
    (connected : (Client.connect p.settings).run.run (InMemory.answer now outside)
      ⟨p.tokens, .empty, world⟩ = (.ok client, m))
    (given : p.tokens.access = some token)
    (asked : client.whoami.run.run (InMemory.answer now outside) m = (answered, m')) :
    p.runIn now outside world =
      ((withUser client (describe client) answered).map fun report =>
        if m'.tokens.access = p.tokens.access then report
        else report.withMember "refreshed_tokens" (shown m'.tokens), m') := by
  rw [runIn, report, Procedure.run_bind, connected]
  simp only [given, Option.isNone_some, Bool.false_eq_true, if_false]
  rw [Procedure.run_bind, run_add_user, asked]
  cases withUser client (describe client) answered with
  | error trouble => rfl
  | ok report =>
    dsimp only
    rw [Procedure.run_bind, run_add_tokens, given]
    rfl

theorem shows_asked {start : Option String} {pair : TokenPair}
    {answered : Except Failure String} :
    Shows ((withUser client (describe client) answered).map fun report =>
        if pair.access = start then report
        else report.withMember "refreshed_tokens" (shown pair)) pair ↔
      pair.access ≠ start ∧ Settled client answered := by
  by_cases settled : Settled client answered
  · obtain ⟨members, reported, hidden⟩ := settled_report settled
    rw [reported, and_iff_left settled]
    by_cases same : pair.access = start
    · refine iff_of_false ?_ (not_not_intro same)
      rintro ⟨report, made, shows⟩
      simp only [Except.map, if_pos same, Except.ok.injEq] at made
      subst made
      exact nomatch hidden.symm.trans shows
    · refine iff_of_true ⟨_, rfl, ?_⟩ same
      simp only [if_neg same, Json.Value.withMember, Json.Value.member?, findKey?_insertEntry,
        if_true]
  · obtain ⟨trouble, failed⟩ := unsettled_report (describe client) settled
    refine iff_of_false ?_ fun ⟨_, settled'⟩ => settled settled'
    rintro ⟨report, made, -⟩
    rw [failed] at made
    contradiction

end Endings

/-- Renewed tokens are kept exactly in those runs in which the access token is a new one and the
    question after its user was settled. -/
theorem renewed_tokens_shown_iff (p : Probe) (world : σ) :
    let run := p.runIn now outside world
    let connected := (Client.connect p.settings).run.run (InMemory.answer now outside)
      ⟨p.tokens, .empty, world⟩
    (run.2.tokens ≠ p.tokens → Shows run.1 run.2.tokens) ↔
      run.2.tokens = p.tokens ∨
        run.2.tokens.access ≠ p.tokens.access ∧ ∃ client, connected.1 = .ok client ∧
          Settled client (client.whoami.run.run (InMemory.answer now outside) connected.2).1 := by
  intro run connected
  have start : connected.2.tokens = p.tokens := Client.tokens_connect now outside _ _
  by_cases kept : run.2.tokens = p.tokens
  · exact iff_of_true (absurd kept) (.inl kept)
  rw [imp_iff_right kept, or_iff_right kept]
  rcases same : connected with ⟨result, m⟩
  rw [same] at start
  cases result with
  | error failure =>
    have ended : run = _ := run_unconnected same
    exact absurd (by rw [ended]; exact start) kept
  | ok client =>
    cases given : p.tokens.access with
    | none =>
      have ended : run = _ := run_unasked same given
      exact absurd (by rw [ended]; exact start) kept
    | some token =>
      rcases asked : client.whoami.run.run (InMemory.answer now outside) m with ⟨answered, m'⟩
      have ended : run = _ := run_asked same given asked
      rw [ended]
      simp only [given, shows_asked, Except.ok.injEq, exists_eq_left', asked]

section Losses

open Scenario

def sample : Probe := ⟨"http://hs", ⟨some "a1", some "r1"⟩, .default⟩

def renewing (valid : String) (refresh other : Reply) : World where
  link := .http true
  tokens := .empty
  valid := some valid
  replies :=
    ⟨[.plain 200 "\x7b\x22versions\x22:[\x22v1.7\x22]\x7d"], [refresh], [other]⟩
  lockTurns := []
  locks := .empty
  cache := .empty
  events := []

def bothTokens (access : String) : Reply :=
  .plain 200 ("\x7b\x22access_token\x22:\x22" ++ access ++ "\x22,\x22refresh_token\x22:\x22r2\x22\x7d")

def failing : World := renewing "a2" (bothTokens "a2") (.plain 500 "")

def misnamed : World :=
  renewing "a2" (bothTokens "a2") (.plain 200 "\x7b\x22user_id\x22:\x22@me\x22\x7d")

def half : World :=
  renewing "a0" { bothTokens "a1" with change := ⟨none, none, some (some "a1")⟩ }
    (.plain 200 "\x7b\x22user_id\x22:\x22@me:hs\x22\x7d")

theorem not_shows {outcome : Except Trouble Json.Value}
    (hidden : (outcome.toOption.bind (·.member? "refreshed_tokens")).isNone = true)
    (pair : TokenPair) : ¬ Shows outcome pair := by
  rintro ⟨report, rfl, shows⟩
  simp [Except.toOption, shows] at hidden

def Loses (world : World) : Prop :=
  let run := sample.runIn (fun _ => 0) (World.answer 0) world
  run.2.tokens ≠ sample.tokens ∧ ¬ Shows run.1 run.2.tokens

theorem renewed_tokens_can_be_lost : Loses failing ∧ Loses misnamed ∧ Loses half := by
  have lost : ∀ world ∈ [failing, misnamed, half],
      let run := sample.runIn (fun _ => 0) (World.answer 0) world
      run.2.tokens ≠ sample.tokens ∧
        (run.1.toOption.bind (·.member? "refreshed_tokens")).isNone = true := by
    have parsed : Url.parse sample.settings.serverUrl = .ok .hs := Url.parse_hs
    simp only [runIn, report, Client.connect_listed parsed Catalog.listed_builtin]
    decide +kernel
  have loses (world : World) (mem : world ∈ [failing, misnamed, half]) : Loses world :=
    ⟨(lost world mem).1, not_shows (lost world mem).2 _⟩
  exact ⟨loses failing (by simp), loses misnamed (by simp), loses half (by simp)⟩

end Losses

end MatrixSession.Probe
