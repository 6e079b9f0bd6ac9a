import MatrixSession.Http.Basic
import MatrixSession.Proofs.Connection.InMemory
import MatrixSession.Proofs.Execution.Protocol
import MatrixSession.Proofs.Json.Members

/-!
Tokens on the wire. A refresh token leaves in the body of a request, new tokens come in the body of the
reply to it, and the new access token leaves in a header. None of them is changed on the way.
-/
namespace MatrixSession

open Json Utf8

namespace RefreshedTokens

/-- An object that gives one access token and one refresh token, among other members. No name holds
    a lone surrogate. -/
structure Brings (members : List (Content × Tree)) (access refresh : String) : Prop where
  named : ∀ m ∈ members, ∃ name, m.1 = .ofString name
  accessOnce : (members.map (·.1)).count (.ofString "access_token") = 1
  refreshOnce : (members.map (·.1)).count (.ofString "refresh_token") = 1
  access : ∀ m ∈ members, m.1 = .ofString "access_token" → m.2 = .text access
  refresh : ∀ m ∈ members, m.1 = .ofString "refresh_token" → m.2 = .text refresh

def fieldOf (access refresh name : String) : Field :=
  if name = "access_token" then .access access
  else if name = "refresh_token" then .refresh (some refresh)
  else .other

theorem nullableString_denotes {text : List Char} {token : String}
    (denotes : Denotes text (.text token)) : Reads nullableString text (some token) := by
  intro rest delimited
  have read := string_denotes denotes rest delimited
  cases denotes with
  | string quoted =>
    obtain ⟨spelled⟩ := quoted
    rw [encodeChars_between (a := 0x22) (b := 0x22) rfl rfl] at read ⊢
    rw [nullableString, read]
    · rfl
    · intro more null
      exact absurd (List.cons.inj null).1 (by decide)

theorem field_denotes {access refresh name : String} {tree : Tree}
    (isAccess : name = "access_token" → tree = .text access)
    (isRefresh : name = "refresh_token" → tree = .text refresh)
    {text : List Char} (denotes : Denotes text tree) :
    Reads (field name) text (fieldOf access refresh name) := by
  intro rest delimited
  unfold field fieldOf
  split_ifs with first second
  · obtain rfl := isAccess first
    rw [string_denotes denotes rest delimited]
    rfl
  · obtain rfl := isRefresh second
    rw [nullableString_denotes denotes rest delimited]
    rfl
  · rw [skip_denotes denotes rest delimited]
    rfl

theorem ofFields_fieldOf (access refresh : String) {names : List String}
    (accessOnce : names.count "access_token" = 1) (refreshOnce : names.count "refresh_token" = 1) :
    ofFields? (names.map (fieldOf access refresh)) = some ⟨access, some refresh⟩ := by
  have accesses : (names.map (fieldOf access refresh)).filterMap Field.access? = [access] := by
    have others (name : String) (other : name ≠ "access_token") :
        (fieldOf access refresh name).access? = none := by
      rw [fieldOf, if_neg other]
      split_ifs <;> rfl
    have own : (fieldOf access refresh "access_token").access? = some access := rfl
    rw [filterMap_count own others, accessOnce]
    rfl
  have refreshes : (names.map (fieldOf access refresh)).filterMap Field.refresh? = [some refresh] := by
    have others (name : String) (other : name ≠ "refresh_token") :
        (fieldOf access refresh name).refresh? = none := by
      unfold fieldOf
      split_ifs <;> rfl
    have own : (fieldOf access refresh "refresh_token").refresh? = some (some refresh) := rfl
    rw [filterMap_count own others, refreshOnce]
    rfl
  simp only [ofFields?, accesses, refreshes]

theorem reader_object (more : List UInt8) (fields : List (String × Field)) (rest : List UInt8)
    (read : object field (0x7B :: more) = some (fields, rest)) :
    reader (0x7B :: more) = (ofFields? (fields.map (·.2))).map fun made => (made, rest) := by
  rw [reader, read]
  · cases made : ofFields? (fields.map (·.2)) <;> simp [made]
  · intro more array
    exact absurd (List.cons.inj array).1 (by decide)

theorem ofBytes?_document {text : List Char} {members : List (Content × Tree)}
    {access refresh : String} (document : Document text (.object members))
    (brings : Brings members access refresh) :
    ofBytes? (encodeChars text) = some ⟨access, some refresh⟩ := by
  obtain ⟨named, accessOnce, refreshOnce, isAccess, isRefresh⟩ := brings
  obtain ⟨names, named⟩ := exists_names named
  rw [named.count] at accessOnce refreshOnce
  have made := ofFields_fieldOf access refresh accessOnce refreshOnce
  refine whole_document (fun text => named.record reader_object ?_ made) document
  intro m mem name same text denotes
  refine field_denotes ?_ ?_ denotes
  · rintro rfl
    exact isAccess m mem same
  · rintro rfl
    exact isRefresh m mem same

end RefreshedTokens

structure Http.Request.Spends (sent : Http.Request) (token : String) : Prop where
  written : Document sent.body.toList (.object [(.ofString "refresh_token", .text token)])
  read : Value.ofBytes? (encode sent.body) = some (.object [("refresh_token", .string token)])

theorem RefreshBuilder.standard_spends {server : Url} {token : String} {request : Command}
    (built : standard server token = .ok request) :
    ∃ sent, Http.Request.ofCommand? request = some sent ∧ sent.Spends token := by
  rw [standard_eq] at built
  split at built
  · contradiction
  · rename_i url extended
    obtain rfl := Except.ok.inj built
    have written := document_textObject [("refresh_token", token)]
    have body : (String.ofList (textObject [("refresh_token", token)]).compactChars).toList =
        (textObject [("refresh_token", token)]).compactChars := String.toList_ofList
    refine ⟨_, rfl, ?_, ?_⟩
    · change Document (String.ofList (textObject [("refresh_token", token)]).compactChars).toList _
      rw [body]
      exact written
    · change Value.ofBytes? (encodeChars
        (String.ofList (textObject [("refresh_token", token)]).compactChars).toList) = _
      rw [body, value_texts written]
      rfl

namespace Client

section Renewing

variable {σ : Type} (c : Client) (command : Command)

structure Arrives (answer : (op : Operation) → σ → op.Reply × σ) (phase : Phase) (s : σ)
    (exchanges : List Exchange) (phase' : Phase) (s' : σ) : Prop where
  transcript : (remaining c command phase).transcript answer s =
    exchanges ++ (remaining c command phase').transcript answer s'
  run : (remaining c command phase).run answer s = (remaining c command phase').run answer s'

variable {c command} {answer : (op : Operation) → σ → op.Reply × σ}

theorem Arrives.step (p : Point) {s s' : σ} {reply : (p.operation c command).Reply} {phase : Phase}
    (told : answer (p.operation c command) s = (reply, s')) (goes : p.next c command reply = phase) :
    Arrives c command answer (.going p) s [⟨p.operation c command, reply⟩] phase s' := by
  subst goes
  exact ⟨transcript_remaining c command answer p told, run_remaining c command answer p told⟩

theorem Arrives.trans {phase phase' phase'' : Phase} {s s' s'' : σ} {before after : List Exchange}
    (first : Arrives c command answer phase s before phase' s')
    (second : Arrives c command answer phase' s' after phase'' s'') :
    Arrives c command answer phase s (before ++ after) phase'' s'' := by
  constructor
  · rw [first.transcript, second.transcript, List.append_assoc]
  · rw [first.run, second.run]

theorem Arrives.finished {phase : Phase} {s s' : σ} {exchanges : List Exchange}
    {result : Except Failure Response}
    (arrives : Arrives c command answer phase s exchanges (.finished result) s') :
    (remaining c command phase).transcript answer s = exchanges ∧
      ((remaining c command phase).run answer s).2 = s' := by
  rw [arrives.transcript, arrives.run, transcript_finished, run_finished]
  exact ⟨List.append_nil exchanges, rfl⟩

variable (c command) (outside : (op : Operation) → σ → op.Reply × σ)

/-- The world turns the first token down, grants the lock, and answers the refresh request with a
    text. -/
def Renewing (old : String) (request : Command) (text : List Char) (s : σ) : Prop :=
  ∃ rejection s₁ s₂ s₃, rejection.status = 401 ∧
    outside (.send (command.withBearer old) (c.options false)) s = (.ok rejection, s₁) ∧
    outside (.acquire c.config.lockName c.config.lockTimeout) s₁ = (true, s₂) ∧
    outside (.send request (c.options false)) s₂ = (.ok ⟨200, encodeChars text⟩, s₃)

variable {c command outside} (now : σ → Nat) {m : InMemory σ} {old spent : String} {request : Command}
  {text : List Char}

theorem arrives_refreshed (feature : c.features.has .refreshTokenV3 = true)
    (stored : m.tokens = ⟨some old, some spent⟩)
    (built : c.refreshBuilder c.server spent = .ok request)
    (renewing : Renewing c command outside old request text m.around) :
    ∃ (exchanges : List Exchange) (rejection : Response) (s : σ),
      exchanges.filterMap Exchange.sent? = [command.withBearer old, request] ∧
      Arrives c command (InMemory.answer now outside) (.going .readAccess) m exchanges
        (.going (Point.afterRefresh rejection (.ok ⟨200, encodeChars text⟩)))
        { m with around := s } := by
  obtain ⟨rejection, s₁, s₂, s₃, unauthorized, turnedDown, granted, answered⟩ := renewing
  have read (kind : TokenKind) (s : σ) :
      InMemory.answer now outside (.readToken kind) { m with around := s } =
        ((⟨some old, some spent⟩ : TokenPair).get kind, { m with around := s }) := by
    rw [← stored]
    rfl
  have readFirst := read .access m.around
  have sendFirst : InMemory.answer now outside (.send (command.withBearer old) (c.options false)) m =
      (.ok rejection, { m with around := s₁ }) := by
    simp only [InMemory.answer, InMemory.forward, turnedDown]
  have takeLock : InMemory.answer now outside
      (.acquire c.config.lockName c.config.lockTimeout) { m with around := s₁ } =
        (true, { m with around := s₂ }) := by
    simp only [InMemory.answer, InMemory.forward, granted]
  have sendRefresh : InMemory.answer now outside (.send request (c.options false))
      { m with around := s₂ } = (.ok ⟨200, encodeChars text⟩, { m with around := s₃ }) := by
    simp only [InMemory.answer, InMemory.forward, answered]
  have rejected : Arrives c command (InMemory.answer now outside) _ m _ _ _ :=
    (Arrives.step .readAccess readFirst rfl).trans
      (.step (.sendFirst old) sendFirst (if_pos unauthorized))
  have locked := rejected.trans
    ((Arrives.step (.readRefresh old rejection) (read .refresh s₁) (if_pos (by simp [feature, TokenPair.get]))).trans
      (.step (.takeLock old rejection) takeLock rfl))
  have spending : Point.next c command (.spendRefresh rejection) (some spent) =
      .going (.sendRefresh rejection request) := by
    simp only [Point.next, Point.afterSpending, built]
  have spent := locked.trans
    ((Arrives.step (.readAgain old rejection) (read .access s₂) (if_pos rfl)).trans
      (.step (.spendRefresh rejection) (read .refresh s₂) spending))
  have refreshed := spent.trans (.step (.sendRefresh rejection request) sendRefresh rfl)
  exact ⟨_, rejection, s₃, rfl, refreshed⟩

variable (c command outside m)

theorem arrives_replayed (rejection : Response) (access refresh : String) :
    ∃ (exchanges : List Exchange) (result : Except Failure Response) (s : σ),
      exchanges.filterMap Exchange.sent? = [command.withBearer access] ∧
      Arrives c command (InMemory.answer now outside)
        (.going (.storeAccess rejection ⟨access, some refresh⟩)) m exchanges (.finished result)
        { m with tokens := ⟨some access, some refresh⟩, around := s } := by
  have stored : Arrives c command (InMemory.answer now outside) _ m _ _ _ :=
    (Arrives.step (.storeAccess rejection ⟨access, some refresh⟩) rfl rfl).trans
      (.step (.storeRefresh rejection refresh) rfl rfl)
  have left := stored.trans (.step (.giveBack rejection (.ok true)) rfl rfl)
  have replayed := (left.trans (.step .readRenewed rfl rfl)).trans (.step (.sendAgain access) rfl rfl)
  exact ⟨_, _, _, rfl, replayed⟩

end Renewing

/-- A refresh that is answered spends exactly the stored refresh token and stores exactly the new tokens,
    and the command is sent again with exactly the new access token, whatever characters are in them. -/
theorem tokens_survive_wire {σ : Type} (now : σ → Nat) (outside : (op : Operation) → σ → op.Reply × σ)
    (c : Client) (standard : c.refreshBuilder = .standard)
    (feature : c.features.has .refreshTokenV3 = true)
    (command : Command) (authorized : command.requiresAuth = true)
    (m : InMemory σ) {old spent : String} (stored : m.tokens = ⟨some old, some spent⟩)
    {request : Command} (built : c.refreshBuilder c.server spent = .ok request)
    {text : List Char} (renewing : Renewing c command outside old request text m.around)
    {members : List (Content × Tree)} (document : Document text (.object members))
    {access refresh : String} (brings : RefreshedTokens.Brings members access refresh) :
    let transcript := (c.execute command).run.transcript (InMemory.answer now outside) m
    let after := ((c.execute command).run.run (InMemory.answer now outside) m).2
    (∃ sent, Http.Request.ofCommand? request = some sent ∧ sent.Spends spent) ∧
      transcript.filterMap Exchange.sent? =
        [command.withBearer old, request, command.withBearer access] ∧
      (command.withBearer access).bearer? = some access ∧
      after.tokens = ⟨some access, some refresh⟩ := by
  intro transcript after
  rw [standard] at built
  have spends := RefreshBuilder.standard_spends built
  rw [← standard] at built
  obtain ⟨exchanges, rejection, s, sent, refreshed⟩ :=
    arrives_refreshed now feature stored built renewing
  have tokens : Point.afterRefresh rejection (.ok ⟨200, encodeChars text⟩) =
      .storeAccess rejection ⟨access, some refresh⟩ := by
    have decoded := RefreshedTokens.ofBytes?_document document brings
    simp [Point.afterRefresh, Response.decode, decoded]
  obtain ⟨exchanges', result, s', sentAgain, replayed⟩ :=
    arrives_replayed c command outside now { m with around := s } rejection access refresh
  rw [tokens] at refreshed
  have whole := (refreshed.trans replayed).finished
  have start : (c.execute command).run = remaining c command (.going .readAccess) := by
    rw [execute_remaining, Point.first, if_pos authorized]
  rw [← start] at whole
  obtain ⟨told, ended⟩ := whole
  have sentInAll : transcript.filterMap Exchange.sent? =
      [command.withBearer old, request, command.withBearer access] := by
    rw [show transcript = _ from told, List.filterMap_append, sent, sentAgain]
    rfl
  exact ⟨spends, sentInAll, Command.bearer_with_bearer command access, congrArg (·.tokens) ended⟩

section Samples

def renewingWith (text : List Char) : (op : Operation) → Nat → op.Reply × Nat
  | .send .., 0 => (.ok ⟨401, []⟩, 1)
  | .send .., n + 1 => (.ok ⟨200, encodeChars text⟩, n + 2)
  | .acquire .., n => (true, n)
  | .readToken _, n | .consult .., n => (none, n)
  | .writeToken .., n | .release _, n | .remember .., n => ((), n)

def written (members : List Member) : List Char :=
  '{' :: separated (members.map Member.text) ++ ['}']

def renewingMemory (reply : List Member) : (op : Operation) → InMemory Nat → op.Reply × InMemory Nat :=
  InMemory.answer (fun _ => 0) (renewingWith (written reply))

def question : Command := ⟨"GET", sample.server, none, .empty, true⟩

def holding (spent : String) : InMemory Nat := ⟨⟨some "a1", some spent⟩, .empty, 0⟩

theorem renewing_with (request : Command) (text : List Char) :
    Renewing sample question (renewingWith text) "a1" request text 0 :=
  ⟨⟨401, []⟩, 1, 1, 2, rfl, rfl, rfl, rfl⟩

theorem built_sample (token : String) :
    ∃ request, sample.refreshBuilder sample.server token = .ok request := by
  have posted : (sample.server.withSegments? ["_matrix", "client", "v3", "refresh"]).isSome = true := by
    decide +kernel
  obtain ⟨url, extended⟩ := Option.isSome_iff_exists.mp posted
  refine ⟨⟨"POST", url, (Endpoint.refresh token).body?, .empty, false⟩, ?_⟩
  rw [show sample.refreshBuilder = .standard from rfl, RefreshBuilder.standard_eq, extended]

def oddAccess : String := "Bearer \"\\\x00\n😀 "

def oddRefresh : String := " \x7f\t\\\"𐍈"

def oddSpent : String := oddAccess ++ oddRefresh

def oddReply : List Member :=
  [printedMember "refresh_token" oddRefresh,
    ⟨.ofString "x", stringChars "x", [' '], ['\n'], .string [none], "\"\\ud800\"".toList⟩,
    printedMember "access_token" oddAccess]

theorem sound_odd : ∀ m ∈ oddReply, m.Sound := by
  have blank : Blank [' '] ∧ Blank ['\n'] := by simp [Blank]
  simp only [oddReply, List.forall_mem_cons, List.not_mem_nil, false_implies, implies_true, and_true]
  exact ⟨sound_printed _ _, ⟨quoted_stringChars "x", blank, .string quoted_lone⟩, sound_printed _ _⟩

theorem brings_odd :
    RefreshedTokens.Brings (oddReply.map fun m => (m.key, m.value)) oddAccess oddRefresh := by
  constructor
  · simp only [oddReply, List.map_cons, List.map_nil, List.forall_mem_cons, List.not_mem_nil,
      false_implies, implies_true, and_true]
    exact ⟨⟨_, rfl⟩, ⟨_, rfl⟩, ⟨_, rfl⟩⟩
  · decide
  · decide
  · simp only [oddReply, List.map_cons, List.map_nil, List.forall_mem_cons, List.not_mem_nil,
      false_implies, implies_true, and_true]
    exact ⟨fun same => absurd same (by decide), fun same => absurd same (by decide), fun _ => rfl⟩
  · simp only [oddReply, List.map_cons, List.map_nil, List.forall_mem_cons, List.not_mem_nil,
      false_implies, implies_true, and_true]
    exact ⟨fun _ => rfl, fun same => absurd same (by decide), fun same => absurd same (by decide)⟩

theorem odd_tokens_survive_wire :
    ∃ request, sample.refreshBuilder sample.server oddSpent = .ok request ∧
      Document (written oddReply) (.object (oddReply.map fun m => (m.key, m.value))) ∧
      (∃ sent, Http.Request.ofCommand? request = some sent ∧ sent.Spends oddSpent) ∧
      ((sample.execute question).run.transcript (renewingMemory oddReply)
          (holding oddSpent)).filterMap Exchange.sent? =
        [question.withBearer "a1", request, question.withBearer oddAccess] ∧
      (question.withBearer oddAccess).bearer? = some oddAccess ∧
      ((sample.execute question).run.run (renewingMemory oddReply) (holding oddSpent)).2.tokens =
        ⟨some oddAccess, some oddRefresh⟩ := by
  unfold renewingMemory
  obtain ⟨request, built⟩ := built_sample oddSpent
  have document := document_members sound_odd
  have survived := tokens_survive_wire (fun _ => 0) (renewingWith (written oddReply)) sample rfl
    (by decide) question rfl (holding oddSpent) rfl built (renewing_with request _) document brings_odd
  exact ⟨request, built, document, survived⟩

def loneReply : List Member :=
  [printedMember "access_token" "a2", printedMember "refresh_token" "r2", loneName]

/-- Such a member makes the reply unreadable, and its tokens are not stored. -/
theorem lone_name_loses_tokens :
    let run := (sample.execute question).run.run (renewingMemory loneReply) (holding "r1")
    Document (written loneReply) (.object
        [(.ofString "access_token", .text "a2"), (.ofString "refresh_token", .text "r2"),
          ([none], .null)]) ∧
      run.1 = .error (.protocol .malformedJson) ∧ run.2.tokens = ⟨some "a1", some "r1"⟩ := by
  intro run
  have sound : ∀ m ∈ loneReply, m.Sound := by
    simp only [loneReply, List.forall_mem_cons, List.not_mem_nil, false_implies, implies_true,
      and_true]
    exact ⟨sound_printed _ _, sound_printed _ _, sound_lone_name⟩
  obtain ⟨request, built⟩ := built_sample "r1"
  obtain ⟨exchanges, rejection, s, -, refreshed⟩ := arrives_refreshed (fun _ => 0) (by decide)
    (show (holding "r1").tokens = ⟨some "a1", some "r1"⟩ from rfl) built
    (renewing_with request (written loneReply))
  have unread : RefreshedTokens.ofBytes? (encodeChars (written loneReply)) = none := by
    have refused : (RefreshedTokens.ofBytes? (encodeChars (written loneReply))).isNone = true := by decide +kernel
    exact Option.isNone_iff_eq_none.mp refused
  have failed : Point.afterRefresh rejection (.ok ⟨200, encodeChars (written loneReply)⟩) =
      .giveBack rejection (.error (.protocol .malformedJson)) := by
    simp [Point.afterRefresh, Response.decode, unread]
  rw [failed] at refreshed
  have whole := refreshed.trans (.step (.giveBack rejection (.error (.protocol .malformedJson))) rfl rfl)
  have start : (sample.execute question).run = remaining sample question (.going .readAccess) :=
    execute_remaining sample question
  refine ⟨document_members sound, ?_⟩
  simp only [run, renewingMemory, start]
  rw [whole.run, Point.next, run_finished]
  exact ⟨rfl, rfl⟩

end Samples

end Client

end MatrixSession
