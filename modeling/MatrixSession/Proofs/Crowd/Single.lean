import MatrixSession.Proofs.Crowd.Rotation

/-!
One refresh for a whole crowd. The access token that all calls start with has expired, the server
accepts only the last one it issued, and every refresh works. Then one call refreshes, and all others
take over what it brought, also those whose token was rejected long before.
-/
namespace MatrixSession

def accepted (valid : Option String) (ledger : List RefreshedTokens) : Option String :=
  (ledger.head?.map RefreshedTokens.access).or valid

/-- Every refresh request is answered with a new pair, and every other command with a response, which
    is a rejection unless the command carries the accepted token. -/
def AlwaysRefreshes (isRefresh : Command → Bool) (initial : TokenPair) (valid : Option String) :
    ServerRule :=
  fun ledger command reply ledger' =>
    if isRefresh command then
      ∃ response tokens token, reply = .ok response ∧ response.status = 200 ∧
        response.decode RefreshedTokens.ofBytes? = .ok tokens ∧
        tokens.access ∉ ledger.map RefreshedTokens.access ++ initial.access.toList ∧
        tokens.refresh = some token ∧ token ∉ issued initial ledger ∧ ledger' = tokens :: ledger
    else
      ledger' = ledger ∧ ∃ response, reply = .ok response ∧
        (response.status = 401 ↔ command.bearer? ≠ accepted valid ledger)

theorem rotates_of_always_refreshes {isRefresh : Command → Bool} {initial : TokenPair}
    {valid : Option String} {ledger ledger' : List RefreshedTokens} {command : Command}
    {reply : Except Failure Response}
    (served : AlwaysRefreshes isRefresh initial valid ledger command reply ledger') :
    Rotates isRefresh initial ledger command reply ledger' := by
  unfold AlwaysRefreshes at served
  unfold Rotates
  split at served
  · rename_i refresh
    obtain ⟨response, tokens, token, replied, success, decoded, -, brought, fresh, later⟩ := served
    rw [if_pos refresh]
    refine .inr ⟨response, tokens, replied, success, decoded, ?_, later⟩
    intro other same
    rw [brought] at same
    exact Option.some.inj same ▸ fresh
  · rename_i other
    rw [if_neg other]
    exact served.1

open Client (Point Phase)

variable {rule : LockRule} {n : Nat}

theorem Answers.mono {server server' : ServerRule}
    (weaker : ∀ {ledger command reply ledger'},
      server ledger command reply ledger' → server' ledger command reply ledger')
    {who : Nat} {op : Operation} {reply : op.Reply} {s s' : Shared rule}
    (answers : Answers server who op reply s s') : Answers server' who op reply s s' := by
  cases op with
  | send command options =>
    obtain ⟨ledger, served, same⟩ := answers
    exact ⟨ledger, weaker served, same⟩
  | _ => exact answers

theorem Move.mono {server server' : ServerRule}
    (weaker : ∀ {ledger command reply ledger'},
      server ledger command reply ledger' → server' ledger command reply ledger')
    {c : Client} {command : Command} {who : Nat} {s s' : Shared rule} {place place' : Place}
    (move : Move server c command who s place s' place') :
    Move server' c command who s place s' place' := by
  cases move with
  | operate p reply answers => exact .operate p reply (answers.mono weaker)
  | request rejected rejection requests => exact .request rejected rejection requests
  | enter rejected rejection granted => exact .enter rejected rejection granted
  | giveUp rejected rejection withdraws => exact .giveUp rejected rejection withdraws

def Shared.Renewed (s : Shared rule) : Prop :=
  ∃ tokens, s.ledger = [tokens] ∧ s.tokens.access = some tokens.access

/-- An execution ends with the reply to what it sent last, and that is no rejection. Without a refresh
    token it ends with the rejection of its only attempt, and if the refresh request cannot be built with
    the failure to build it. -/
def Client.Ends (c : Client) (command : Command) (who : Nat) (initial : TokenPair)
    (sent : List Sending) (result : Except Failure Response) : Prop :=
  (∃ token response earlier, result = .ok response ∧ response.status ≠ 401 ∧
    sent = ⟨who, command.withBearer token, .ok response⟩ :: earlier) ∨
  (initial.refresh = none ∧ ∃ token response, initial.access = some token ∧ result = .ok response ∧
    response.status = 401 ∧ sent = [⟨who, command.withBearer token, .ok response⟩]) ∨
  ∃ token failure, initial.refresh = some token ∧ c.refreshBuilder c.server token = .error failure ∧
    result = .error failure

/-- What is known of a call at a place. Only the first access token is ever rejected, and only before
    the first refresh the lock is entered in order to refresh. -/
def Place.Fits (c : Client) (command : Command) (who : Nat) (initial : TokenPair) (s : Shared rule) :
    Place → Prop
  | .within (.finished result) => c.Ends command who initial (s.sentBy who) result
  | .within (.going .sendPublic) => False
  | .within (.going .readAccess) => s.sentBy who = []
  | .within (.going (.sendFirst token)) =>
    s.sentBy who = [] ∧
      (some token = initial.access ∨ ∃ tokens, s.ledger = [tokens] ∧ token = tokens.access)
  | .within (.going (.readRefresh rejected rejection)) =>
    some rejected = initial.access ∧ rejection.status = 401 ∧
      s.sentBy who = [⟨who, command.withBearer rejected, .ok rejection⟩]
  | .within (.going (.takeLock rejected _)) | .inLine rejected _
  | .within (.going (.readAgain rejected _)) =>
    some rejected = initial.access ∧ initial.refresh.isSome
  | .within (.going (.spendRefresh _)) | .within (.going (.sendRefresh ..)) =>
    s.ledger = [] ∧ initial.refresh.isSome
  | .within (.going (.storeAccess ..)) | .within (.going (.storeRefresh ..)) =>
    initial.refresh.isSome
  | .within (.going (.giveBack _ renewed)) =>
    renewed = .ok true ∧ s.Renewed ∨
      ∃ token failure, initial.refresh = some token ∧
        c.refreshBuilder c.server token = .error failure ∧ renewed = .error failure
  | .within (.going .readRenewed) => s.Renewed
  | .within (.going (.sendAgain token)) => ∃ tokens, s.ledger = [tokens] ∧ token = tokens.access

structure Once (isRefresh : Command → Bool) (initial : TokenPair) (s : Shared rule) : Prop where
  counted : s.requests.countP isRefresh = s.ledger.length
  once : s.ledger.length ≤ 1
  fresh : ∀ tokens ∈ s.ledger, some tokens.access ≠ initial.access
  access : s.tokens.access = initial.access ∨ s.Renewed
  refresh : s.tokens.refresh.isSome = initial.refresh.isSome

structure Single (party : Party n) (initial : TokenPair) (s : Shared rule)
    (places : Fin n → Place) : Prop where
  safe : Safe party initial s places
  once : Once party.isRefresh initial s
  fits : ∀ i, (places i).Fits (party.client i) (party.command i) i initial s

theorem Place.Fits.grow {c : Client} {command : Command} {who : Nat} {initial : TokenPair}
    {s s' : Shared rule} {place : Place} (fits : place.Fits c command who initial s)
    (unlocked : ¬ place.Locked) (sent : s'.sentBy who = s.sentBy who)
    (ledger : ∀ tokens, s.ledger = [tokens] → s'.ledger = [tokens])
    (renewed : s.Renewed → s'.Renewed) : place.Fits c command who initial s' := by
  cases place with
  | inLine rejected rejection => exact fits
  | within phase =>
    cases phase with
    | finished result =>
      unfold Place.Fits
      rw [sent]
      exact fits
    | going p =>
      cases p with
      | sendPublic | takeLock => exact fits
      | readAccess => exact sent.trans fits
      | readRefresh rejected rejection => exact ⟨fits.1, fits.2.1, sent.trans fits.2.2⟩
      | sendFirst token =>
        refine ⟨sent.trans fits.1, fits.2.imp_right ?_⟩
        rintro ⟨tokens, same, known⟩
        exact ⟨tokens, ledger tokens same, known⟩
      | readRenewed => exact renewed fits
      | sendAgain token =>
        obtain ⟨tokens, same, known⟩ := fits
        exact ⟨tokens, ledger tokens same, known⟩
      | _ => exact absurd trivial unlocked

theorem Place.Fits.keep {c : Client} {command : Command} {who : Nat} {initial : TokenPair}
    {s s' : Shared rule} {place : Place} (fits : place.Fits c command who initial s)
    (sent : s'.sentBy who = s.sentBy who) (tokens : s'.tokens = s.tokens)
    (ledger : s'.ledger = s.ledger) : place.Fits c command who initial s' := by
  have renewed : s'.Renewed ↔ s.Renewed := by
    unfold Shared.Renewed
    rw [tokens, ledger]
  unfold Place.Fits at fits ⊢
  rw [sent, ledger, renewed]
  exact fits

namespace Once

variable {isRefresh : Command → Bool} {initial : TokenPair} {s s' : Shared rule}

theorem keep (once : Once isRefresh initial s) (tokens : s'.tokens = s.tokens)
    (ledger : s'.ledger = s.ledger)
    (requests : s'.requests.countP isRefresh = s.requests.countP isRefresh) :
    Once isRefresh initial s' := by
  obtain ⟨tokens', locks', ledger', requests'⟩ := s'
  obtain rfl := tokens
  obtain rfl := ledger
  exact ⟨requests.trans once.counted, once.once, once.fresh, once.access, once.refresh⟩

theorem known (once : Once isRefresh initial s) {token : String}
    (read : some token = s.tokens.access) :
    some token = initial.access ∨ ∃ tokens, s.ledger = [tokens] ∧ token = tokens.access := by
  refine once.access.imp read.trans ?_
  rintro ⟨tokens, latest, stored⟩
  exact ⟨tokens, latest, Option.some.inj (read.trans stored)⟩

theorem latest (once : Once isRefresh initial s) {tokens : RefreshedTokens}
    {older : List RefreshedTokens} (same : s.ledger = tokens :: older) : older = [] := by
  have short := once.once
  rw [same, List.length_cons] at short
  exact List.length_eq_zero_iff.mp (by omega)

theorem unspent (once : Once isRefresh initial s) (agreed : s.tokens = settled initial s.ledger)
    (first : s.tokens.access = initial.access) : s.ledger = [] := by
  cases ledger : s.ledger with
  | nil => rfl
  | cons tokens older =>
    rw [agreed, ledger] at first
    have fresh := once.fresh tokens (by rw [ledger]; exact List.mem_cons_self)
    exact absurd first fresh

end Once

theorem accepted_latest {valid : Option String} {s : Shared rule} {tokens : RefreshedTokens}
    (latest : s.ledger = [tokens]) : accepted valid s.ledger = some tokens.access := by
  rw [latest]
  rfl

section Fitting

variable {isRefresh : Command → Bool} {c : Client} {command : Command} {who : Nat}
  {initial : TokenPair} {valid : Option String} {s : Shared rule} {rejected : String}
  {rejection : Response}

theorem fits_after_access (once : Once isRefresh initial s) (stored : initial.access ≠ none)
    (unsent : s.sentBy who = []) {token : Option String} (read : token = s.tokens.access) :
    (Place.within (Point.readAccess.next c command token)).Fits c command who initial s := by
  cases token with
  | some token => exact ⟨unsent, once.known read⟩
  | none =>
    obtain first | ⟨tokens, -, renewed⟩ := once.access
    · exact absurd (read.trans first).symm stored
    · exact absurd (read.trans renewed).symm (Option.some_ne_none _)

theorem fits_after_first {token : String} {response : Response} (unsent : s.sentBy who = [])
    (known : some token = initial.access ∨ ∃ tokens, s.ledger = [tokens] ∧ token = tokens.access)
    (rejects : response.status = 401 ↔ some token ≠ accepted valid s.ledger) :
    (Place.within ((Point.sendFirst token).next c command (.ok response))).Fits c command who initial
      { s with sendings := ⟨who, command.withBearer token, .ok response⟩ :: s.sendings } := by
  have sent := s.sent_by_cons who (command.withBearer token) (.ok response) s.ledger
  rw [Point.next]
  split
  · rename_i unauthorized
    rw [unsent] at sent
    refine ⟨known.resolve_right ?_, unauthorized, sent⟩
    rintro ⟨tokens, latest, rfl⟩
    exact rejects.mp unauthorized (accepted_latest latest).symm
  · rename_i authorized
    exact .inl ⟨token, response, _, rfl, authorized, sent⟩

theorem fits_after_refusal (once : Once isRefresh initial s)
    (feature : c.features.has .refreshTokenV3 = true) (first : some rejected = initial.access)
    (unauthorized : rejection.status = 401)
    (sent : s.sentBy who = [⟨who, command.withBearer rejected, .ok rejection⟩])
    {token : Option String} (read : token = s.tokens.refresh) :
    (Place.within ((Point.readRefresh rejected rejection).next c command token)).Fits c command who
      initial s := by
  have refreshable : token.isSome = initial.refresh.isSome := by
    rw [read]
    exact once.refresh
  rw [Point.next, feature, Bool.and_true, refreshable]
  split
  · rename_i present
    exact ⟨first, present⟩
  · rename_i absent
    exact .inr (.inl ⟨Option.not_isSome_iff_eq_none.mp absent, rejected, rejection, first.symm, rfl,
      unauthorized, sent⟩)

theorem fits_under_lock (once : Once isRefresh initial s) (agreed : s.tokens = settled initial s.ledger)
    (first : some rejected = initial.access) (refreshable : initial.refresh.isSome)
    {token : Option String} (read : token = s.tokens.access) :
    (Place.within ((Point.readAgain rejected rejection).next c command token)).Fits c command who
      initial s := by
  rw [Point.next]
  split
  · -- The rejected token is still stored, so nobody has refreshed yet.
    rename_i same
    exact ⟨once.unspent agreed ((read.symm.trans same).trans first), refreshable⟩
  · -- Another token is stored, and it can only be the new one.
    rename_i differs
    refine .inl ⟨rfl, once.access.resolve_left ?_⟩
    intro unchanged
    exact differs ((read.trans unchanged).trans first.symm)

theorem fits_after_spending (agreed : s.tokens = settled initial s.ledger) (unspent : s.ledger = [])
    (refreshable : initial.refresh.isSome) {token : Option String} (read : token = s.tokens.refresh) :
    (Place.within (.going (Point.afterSpending c rejection token))).Fits c command who initial s := by
  have first : token = initial.refresh := by
    rw [read, agreed, unspent, settled_nil]
  cases token with
  | none =>
    rw [← first] at refreshable
    exact absurd refreshable Bool.false_ne_true
  | some token =>
    rw [Point.afterSpending]
    split
    · exact ⟨unspent, refreshable⟩
    · rename_i failure built
      exact .inr ⟨token, failure, first.symm, built, rfl⟩

theorem fits_after_lock {renewed : Except Failure Bool}
    (fits : (Place.within (.going (.giveBack rejection renewed))).Fits c command who initial s) :
    (Place.within ((Point.giveBack rejection renewed).next c command ())).Fits c command who initial
      s := by
  obtain ⟨rfl, renewed⟩ | ⟨token, failure, first, built, rfl⟩ := fits
  · exact renewed
  · exact .inr (.inr ⟨token, failure, first, built, rfl⟩)

theorem fits_with_renewed (renewed : s.Renewed) {token : Option String}
    (read : token = s.tokens.access) :
    (Place.within (Point.readRenewed.next c command token)).Fits c command who initial s := by
  obtain ⟨tokens, latest, stored⟩ := renewed
  cases token with
  | none => exact absurd (read.trans stored).symm (Option.some_ne_none _)
  | some token => exact ⟨tokens, latest, Option.some.inj (read.trans stored)⟩

theorem fits_at_end {token : String} {response : Response}
    (known : ∃ tokens, s.ledger = [tokens] ∧ token = tokens.access)
    (rejects : response.status = 401 ↔ some token ≠ accepted valid s.ledger) :
    (Place.within ((Point.sendAgain token).next c command (.ok response))).Fits c command who initial
      { s with sendings := ⟨who, command.withBearer token, .ok response⟩ :: s.sendings } := by
  have sent := s.sent_by_cons who (command.withBearer token) (.ok response) s.ledger
  refine .inl ⟨token, response, _, rfl, ?_, sent⟩
  obtain ⟨tokens, latest, rfl⟩ := known
  intro unauthorized
  exact rejects.mp unauthorized (accepted_latest latest).symm

end Fitting

namespace Single

variable {party : Party n} {initial : TokenPair} {valid : Option String} {s s' : Shared rule}
  {places : Fin n → Place} {i : Fin n} {place : Place} {rejection : Response}

theorem known (single : Single party initial s places) (here : places i = place) :
    place.Fits (party.client i) (party.command i) i initial s := by
  rw [← here]
  exact single.fits i

theorem keep (single : Single party initial s places)
    (safe : Safe party initial s' (Function.update places i place))
    (others : ∀ other, other ≠ i.val → s'.sentBy other = s.sentBy other)
    (tokens : s'.tokens = s.tokens) (ledger : s'.ledger = s.ledger)
    (requests : s'.requests.countP party.isRefresh = s.requests.countP party.isRefresh)
    (fits : place.Fits (party.client i) (party.command i) i initial s') :
    Single party initial s' (Function.update places i place) := by
  refine ⟨safe, single.once.keep tokens ledger requests, ?_⟩
  intro j
  by_cases mine : j = i
  · subst mine
    rw [Function.update_self]
    exact fits
  · rw [Function.update_of_ne mine]
    exact (single.fits j).keep (others j fun same => mine (Fin.ext same)) tokens ledger

theorem change (single : Single party initial s places)
    (safe : Safe party initial s' (Function.update places i place)) (before : (places i).Locked)
    (once : Once party.isRefresh initial s')
    (others : ∀ other, other ≠ i.val → s'.sentBy other = s.sentBy other)
    (ledger : ∀ tokens, s.ledger = [tokens] → s'.ledger = [tokens])
    (renewed : s.Renewed → s'.Renewed)
    (fits : place.Fits (party.client i) (party.command i) i initial s') :
    Single party initial s' (Function.update places i place) := by
  refine ⟨safe, once, ?_⟩
  intro j
  by_cases mine : j = i
  · subst mine
    rw [Function.update_self]
    exact fits
  · rw [Function.update_of_ne mine]
    have unlocked : ¬ (places j).Locked := by
      intro locked
      exact mine (single.safe.alone locked before)
    exact (single.fits j).grow unlocked (others j fun same => mine (Fin.ext same)) ledger renewed

theorem sent (single : Single party initial s places) {token : String}
    (other : party.isRefresh ((party.command i).withBearer token) = false)
    {reply : Except Failure Response} {options : SendOptions}
    (answers : Answers (AlwaysRefreshes party.isRefresh initial valid) i
      (.send ((party.command i).withBearer token) options) reply s s')
    (safe : Safe party initial s' (Function.update places i place))
    (fits : ∀ response, reply = .ok response →
      (response.status = 401 ↔ some token ≠ accepted valid s.ledger) →
      place.Fits (party.client i) (party.command i) i initial
        { s with sendings := ⟨i, (party.command i).withBearer token, reply⟩ :: s.sendings }) :
    Single party initial s' (Function.update places i place) := by
  have others (who : Nat) (differs : who ≠ i.val) : s'.sentBy who = s.sentBy who :=
    answers.others differs
  obtain ⟨ledger, served, rfl⟩ := answers
  rw [AlwaysRefreshes, other, if_neg Bool.false_ne_true, Command.bearer_with_bearer] at served
  obtain ⟨rfl, response, replied, rejects⟩ := served
  refine single.keep safe others rfl rfl ?_ (fits response replied rejects)
  change (((party.command i).withBearer token) :: s.requests).countP party.isRefresh = _
  rw [List.countP_cons, other]
  rfl

theorem refresh (single : Single party initial s places) {request : Command}
    (here : places i = .within (.going (.sendRefresh rejection request)))
    {reply : Except Failure Response} {options : SendOptions}
    (safe : Safe party initial s'
      (Function.update places i (.within (.going (Point.afterRefresh rejection reply)))))
    (answers : Answers (AlwaysRefreshes party.isRefresh initial valid) i (.send request options)
      reply s s') :
    Single party initial s'
      (Function.update places i (.within (.going (Point.afterRefresh rejection reply)))) := by
  have others (who : Nat) (differs : who ≠ i.val) : s'.sentBy who = s.sentBy who :=
    answers.others differs
  obtain ⟨unspent, refreshable⟩ := single.known here
  obtain ⟨-, spent, -, built⟩ := single.safe.agreed here
  have isRefresh := party.refresh_built i spent request built
  obtain ⟨ledger, served, rfl⟩ := answers
  rw [AlwaysRefreshes, if_pos isRefresh] at served
  obtain ⟨response, tokens, token, rfl, success, decoded, fresh, -, -, rfl⟩ := served
  rw [(Client.after_refresh_brought
    (Client.brought_eq_some.mpr ⟨response, rfl, success, decoded⟩) rejection).1] at safe ⊢
  have unknown : some tokens.access ≠ initial.access := by
    intro same
    refine fresh (List.mem_append_right _ ?_)
    rw [← same]
    exact List.mem_singleton.mpr rfl
  have unrenewed : ¬ s.Renewed := by
    rintro ⟨other, latest, -⟩
    rw [unspent] at latest
    contradiction
  refine single.change safe (by rw [here]; trivial) ⟨?_, ?_, ?_, ?_, single.once.refresh⟩ others ?_ ?_
    refreshable
  · change (request :: s.requests).countP party.isRefresh = (tokens :: s.ledger).length
    rw [List.countP_cons, if_pos isRefresh, single.once.counted, List.length_cons]
  · rw [unspent]
    exact Nat.le_refl 1
  · rw [unspent]
    exact List.forall_mem_singleton.mpr unknown
  · exact .inl (single.once.access.resolve_right unrenewed)
  · intro other latest
    rw [unspent] at latest
    contradiction
  · intro renewed
    exact absurd renewed unrenewed

theorem store (single : Single party initial s places) {tokens : RefreshedTokens}
    (here : places i = .within (.going (.storeAccess rejection tokens)))
    (safe : Safe party initial
      { s with tokens := s.tokens.put .access (some tokens.access) }
      (Function.update places i (.within (.going (Point.afterAccess rejection tokens))))) :
    Single party initial { s with tokens := s.tokens.put .access (some tokens.access) }
      (Function.update places i (.within (.going (Point.afterAccess rejection tokens)))) := by
  have refreshable := single.known here
  obtain ⟨older, latest, -⟩ := single.safe.agreed here
  obtain rfl := single.once.latest latest
  have renewed : Shared.Renewed { s with tokens := s.tokens.put .access (some tokens.access) } :=
    ⟨tokens, latest, rfl⟩
  refine single.change safe (by rw [here]; trivial)
    ⟨single.once.counted, single.once.once, single.once.fresh, .inr renewed, single.once.refresh⟩
    (fun _ _ => rfl) (fun _ => id) (fun _ => renewed) ?_
  unfold Point.afterAccess
  split
  · exact refreshable
  · exact .inl ⟨rfl, renewed⟩

theorem store_refresh (single : Single party initial s places) {token : String}
    (here : places i = .within (.going (.storeRefresh rejection token)))
    (safe : Safe party initial { s with tokens := s.tokens.put .refresh (some token) }
      (Function.update places i (.within (.going (.giveBack rejection (.ok true)))))) :
    Single party initial { s with tokens := s.tokens.put .refresh (some token) }
      (Function.update places i (.within (.going (.giveBack rejection (.ok true))))) := by
  have refreshable := single.known here
  obtain ⟨brought, older, latest, -, stored⟩ := single.safe.agreed here
  obtain rfl := single.once.latest latest
  have renewed : Shared.Renewed { s with tokens := s.tokens.put .refresh (some token) } := by
    refine ⟨brought, latest, ?_⟩
    change s.tokens.access = _
    rw [stored]
    rfl
  exact single.change safe (by rw [here]; trivial)
    ⟨single.once.counted, single.once.once, single.once.fresh, .inr renewed, refreshable.symm⟩
    (fun _ _ => rfl) (fun _ => id) (fun _ => renewed) (.inl ⟨rfl, renewed⟩)

theorem operate (single : Single party initial s places) (apart : party.Apart)
    (feature : ∀ i, (party.client i).features.has .refreshTokenV3 = true)
    (stored : initial.access ≠ none) {p : Point} (here : places i = .within (.going p))
    (reply : (p.operation (party.client i) (party.command i)).Reply)
    (answers : Answers (AlwaysRefreshes party.isRefresh initial valid) i
      (p.operation (party.client i) (party.command i)) reply s s') :
    Single party initial s' (Function.update places i
      (.within (p.next (party.client i) (party.command i) reply))) := by
  have safe := single.safe.operate apart here reply (answers.mono rotates_of_always_refreshes)
  have fits := single.known here
  have agreed := single.safe.agreed here
  have others (who : Nat) (differs : who ≠ i.val) : s'.sentBy who = s.sentBy who :=
    answers.others differs
  cases p with
  | sendPublic => exact fits.elim
  | takeLock rejected rejection => exact answers.elim
  | readAccess =>
    obtain ⟨read, rfl⟩ := answers
    exact single.keep safe others rfl rfl rfl (fits_after_access single.once stored fits read)
  | sendFirst token =>
    refine single.sent (apart.own_authorized i token) answers safe ?_
    rintro response rfl rejects
    exact fits_after_first fits.1 fits.2 rejects
  | readRefresh rejected rejection =>
    obtain ⟨read, rfl⟩ := answers
    obtain ⟨first, unauthorized, sent⟩ := fits
    exact single.keep safe others rfl rfl rfl
      (fits_after_refusal single.once (feature i) first unauthorized sent read)
  | readAgain rejected rejection =>
    obtain ⟨read, rfl⟩ := answers
    exact single.keep safe others rfl rfl rfl
      (fits_under_lock single.once agreed fits.1 fits.2 read)
  | spendRefresh rejection =>
    obtain ⟨read, rfl⟩ := answers
    exact single.keep safe others rfl rfl rfl (fits_after_spending agreed fits.1 fits.2 read)
  | sendRefresh rejection request => exact single.refresh here safe answers
  | storeAccess rejection tokens =>
    obtain rfl := answers
    exact single.store here safe
  | storeRefresh rejection token =>
    obtain rfl := answers
    exact single.store_refresh here safe
  | giveBack rejection renewed =>
    obtain ⟨locks, -, rfl⟩ := answers
    have after : (Place.within ((Point.giveBack rejection renewed).next (party.client i)
        (party.command i) ())).Fits (party.client i) (party.command i) i initial s :=
      fits_after_lock fits
    exact single.keep safe others rfl rfl rfl (after.keep rfl rfl rfl)
  | readRenewed =>
    obtain ⟨read, rfl⟩ := answers
    exact single.keep safe others rfl rfl rfl (fits_with_renewed fits read)
  | sendAgain token =>
    refine single.sent (apart.own_authorized i token) answers safe ?_
    rintro response rfl rejects
    exact fits_at_end fits rejects

theorem move (single : Single party initial s places) (apart : party.Apart)
    (patient : rule.Patient)
    (feature : ∀ i, (party.client i).features.has .refreshTokenV3 = true)
    (stored : initial.access ≠ none)
    (move : Move (AlwaysRefreshes party.isRefresh initial valid) (party.client i) (party.command i) i
      s (places i) s' place) :
    Single party initial s' (Function.update places i place) := by
  have safe := single.safe.move apart (move.mono rotates_of_always_refreshes)
  generalize here : places i = old at move
  have fits := single.known here
  cases move with
  | operate p reply answers => exact single.operate apart feature stored here reply answers
  | request rejected rejection requests =>
    exact single.keep safe (fun _ _ => rfl) rfl rfl rfl fits
  | enter rejected rejection granted => exact single.keep safe (fun _ _ => rfl) rfl rfl rfl fits
  | giveUp rejected rejection withdraws => exact absurd withdraws (patient _ _ _ _)

theorem start (authorized : ∀ i, (party.command i).requiresAuth = true) (locks : rule.State) :
    Single party initial ⟨initial, locks, [], []⟩
      fun i => .within (.going (Point.first (party.command i))) := by
  refine ⟨Safe.start locks, ⟨rfl, Nat.zero_le 1, List.forall_mem_nil _, .inl rfl, rfl⟩, ?_⟩
  intro i
  rw [Point.first, if_pos (authorized i)]
  rfl

end Single

theorem Place.stand_eq_done {c : Client} {command : Command} {place : Place}
    {result : Except Failure Response} (same : place.stand c command = .ready (.done result)) :
    place = .within (.finished result) := by
  cases place with
  | inLine rejected rejection => contradiction
  | within phase =>
    have same := Stand.ready.inj same
    cases phase with
    | going p =>
      rw [Client.remaining_going] at same
      contradiction
    | finished other =>
      rw [Client.remaining_finished] at same
      rw [Procedure.done.inj same]

/-- Any number of calls, in any order of their steps and none with a refresh request of its own, send
    one refresh request at most, and every call that comes to its end returns the reply to the last
    command that it sent, which is no rejection. There are two exceptions. Without a refresh token in the
    store a call may return the rejection of the first access token, after no other attempt; and if the
    refresh request cannot be built from that token, the failure to build it is returned. -/
theorem Crowd.refreshes_once {party : Party n} {initial : TokenPair} {valid : Option String}
    {locks : rule.State} {s : Crowd rule n} (apart : party.Apart) (patient : rule.Patient)
    (authorized : ∀ i, (party.command i).requiresAuth = true)
    (feature : ∀ i, (party.client i).features.has .refreshTokenV3 = true)
    (stored : initial.access ≠ none)
    (reachable : Reachable (AlwaysRefreshes party.isRefresh initial valid) party initial locks s) :
    s.shared.requests.countP party.isRefresh ≤ 1 ∧
      ∀ i result, s.calls i = .ready (.done result) →
        (∃ token response earlier, result = .ok response ∧ response.status ≠ 401 ∧
          s.shared.sentBy i = ⟨i, (party.command i).withBearer token, .ok response⟩ :: earlier) ∨
        (initial.refresh = none ∧ ∃ token response, initial.access = some token ∧
          result = .ok response ∧ response.status = 401 ∧
          s.shared.sentBy i = [⟨i, (party.command i).withBearer token, .ok response⟩]) ∨
        ∃ token failure, initial.refresh = some token ∧
          (party.client i).refreshBuilder (party.client i).server token = .error failure ∧
          result = .error failure := by
  obtain ⟨places, same, single⟩ := reachable_of_places (Single party initial)
    (Single.start authorized locks)
    (fun _ _ _ _ _ single move => single.move apart patient feature stored move) reachable
  constructor
  · rw [single.once.counted]
    exact single.once.once
  · intro i result finished
    rw [same] at finished
    exact single.known (Place.stand_eq_done finished)

section Sample

variable {party : Party n} {initial : TokenPair} {valid : Option String}
  {ledger : List RefreshedTokens} {token : String} {response : Response}

theorem always_refreshes_rejects (apart : party.Apart) (i : Fin n) (unauthorized : response.status = 401)
    (expired : accepted valid ledger ≠ some token) :
    AlwaysRefreshes party.isRefresh initial valid ledger ((party.command i).withBearer token)
      (.ok response) ledger := by
  unfold AlwaysRefreshes
  rw [apart.own_authorized i token, if_neg Bool.false_ne_true, Command.bearer_with_bearer]
  exact ⟨rfl, response, rfl, fun _ => expired.symm, fun _ => unauthorized⟩

theorem always_refreshes_accepts (apart : party.Apart) (i : Fin n) (authorized : response.status ≠ 401)
    (latest : accepted valid ledger = some token) :
    AlwaysRefreshes party.isRefresh initial valid ledger ((party.command i).withBearer token)
      (.ok response) ledger := by
  unfold AlwaysRefreshes
  rw [apart.own_authorized i token, if_neg Bool.false_ne_true, Command.bearer_with_bearer]
  exact ⟨rfl, response, rfl, fun unauthorized => absurd unauthorized authorized,
    fun other => absurd latest.symm other⟩

theorem always_refreshes_renews {command : Command} {access refresh : String}
    (request : party.isRefresh command = true) (success : response.status = 200)
    (decoded : response.decode RefreshedTokens.ofBytes? = .ok ⟨access, some refresh⟩)
    (first : access ∉ ledger.map RefreshedTokens.access ++ initial.access.toList)
    (fresh : refresh ∉ issued initial ledger) :
    AlwaysRefreshes party.isRefresh initial valid ledger command (.ok response)
      (⟨access, some refresh⟩ :: ledger) := by
  unfold AlwaysRefreshes
  rw [if_pos request]
  exact ⟨response, _, refresh, rfl, success, decoded, first, rfl, fresh, rfl⟩

end Sample

namespace Crowd

/-! Two calls are rejected before either of them asks for the lock. The first one refreshes, the second
one takes over, and both end well. -/
section Pair

def pairServer : ServerRule :=
  AlwaysRefreshes (Party.sample 2).isRefresh ⟨some "a1", some "r1"⟩ none

def attempt (who : Nat) (access : String) (response : Response) : Sending :=
  ⟨who, Command.sample.withBearer access, .ok response⟩

def pairLine : LockTable :=
  (LockTable.empty.request (Party.sample 2).lock 0).request (Party.sample 2).lock 1

@[reducible]
def pairStart : Shared LockRule.table.patiently := ⟨⟨some "a1", some "r1"⟩, .empty, [], []⟩

@[reducible]
def pairRejected : Shared LockRule.table.patiently :=
  ⟨⟨some "a1", some "r1"⟩, pairLine, [], [attempt 1 "a1" .rejection, attempt 0 "a1" .rejection]⟩

@[reducible]
def pairRenewed : Shared LockRule.table.patiently :=
  ⟨⟨some "a2", some "r2"⟩, pairLine.release (Party.sample 2).lock, [⟨"a2", some "r2"⟩],
    ⟨0, .sampleRefresh "r1", .ok (.renewal "a2" "r2")⟩ :: pairRejected.sendings⟩

@[reducible]
def pairEnd : Shared LockRule.table.patiently :=
  { pairRenewed with
    locks := pairRenewed.locks.release (Party.sample 2).lock
    sendings := attempt 0 "a2" ⟨200, []⟩ :: attempt 1 "a2" ⟨200, []⟩ :: pairRenewed.sendings }

def PairReaches (shared : Shared LockRule.table.patiently) (places : Fin 2 → Place) : Prop :=
  Relation.ReflTransGen (Step pairServer)
    (ofPlaces (Party.sample 2) pairStart fun _ => .within (.going .readAccess))
    (ofPlaces (Party.sample 2) shared places)

theorem pair_reaches_line :
    ∃ places, PairReaches pairRejected places ∧ ∀ i, places i = .inLine "a1" .rejection := by
  have rejects (i : Fin 2) : pairServer [] (Command.sample.withBearer "a1") (.ok .rejection) [] :=
    always_refreshes_rejects (Party.sample_apart 2) i rfl (by decide)
  have begun : PairReaches pairStart fun _ => .within (.going .readAccess) := .refl
  have first := steps_of_trek begun 0 (Trek.to_line rfl (rejects 0) rfl (by decide) rfl)
  have both := steps_of_trek first 1 (Trek.to_line rfl (rejects 1) rfl (by decide) rfl)
  exact ⟨_, both, Fin.forall_fin_two.mpr ⟨rfl, rfl⟩⟩

theorem pair_reaches_renewal :
    ∃ places, PairReaches pairRenewed places ∧ places 0 = .within (.going .readRenewed) ∧
      places 1 = .inLine "a1" .rejection := by
  obtain ⟨places, steps, line⟩ := pair_reaches_line
  have renews : pairServer [] (.sampleRefresh "r1") (.ok (.renewal "a2" "r2"))
      [⟨"a2", some "r2"⟩] :=
    always_refreshes_renews ((Party.sample 2).refresh_built 0 "r1" _ (build_sample_refresh "r1")) rfl
      decode_renewal (by decide) (by decide)
  have holder : (pairLine.get (Party.sample 2).lock).holder = some 0 := by decide +kernel
  have refresh : Trek pairServer Client.sample .sample 0 (pairRejected, places 0)
      (pairRenewed, .within (.going .readRenewed)) := by
    rw [line 0]
    exact (Trek.to_refresh holder rfl (build_sample_refresh "r1")).trans
      (Trek.to_renewed renews rfl decode_renewal rfl rfl)
  exact ⟨_, steps_of_trek steps 0 refresh, rfl, line 1⟩

theorem pair_reaches_end :
    ∃ places, PairReaches pairEnd places ∧ ∀ i, places i = .within (.finished (.ok ⟨200, []⟩)) := by
  obtain ⟨places, steps, renewed, line⟩ := pair_reaches_renewal
  have accepts (i : Fin 2) : pairServer [⟨"a2", some "r2"⟩] (Command.sample.withBearer "a2")
      (.ok ⟨200, []⟩) [⟨"a2", some "r2"⟩] :=
    always_refreshes_accepts (Party.sample_apart 2) i (by decide) rfl
  have holder : ((pairLine.release (Party.sample 2).lock).get (Party.sample 2).lock).holder =
      some 1 := by
    decide +kernel
  have second : Trek pairServer Client.sample .sample 1 (pairRenewed, places 1)
      ({ pairEnd with sendings := attempt 1 "a2" ⟨200, []⟩ :: pairRenewed.sendings },
        .within (.finished (.ok ⟨200, []⟩))) := by
    rw [line]
    exact (Trek.to_taken_over holder (by decide) rfl).trans (Trek.to_end rfl (accepts 1))
  have first : Trek pairServer Client.sample .sample 0
      ({ pairEnd with sendings := attempt 1 "a2" ⟨200, []⟩ :: pairRenewed.sendings },
        Function.update places 1 (.within (.finished (.ok ⟨200, []⟩))) 0)
      (pairEnd, .within (.finished (.ok ⟨200, []⟩))) := by
    rw [Function.update_of_ne (by decide), renewed]
    exact Trek.to_end rfl (accepts 0)
  exact ⟨_, steps_of_trek (steps_of_trek steps 1 second) 0 first, Fin.forall_fin_two.mpr ⟨rfl, rfl⟩⟩

end Pair

theorem sample_refreshes_once :
    ∃ s : Crowd LockRule.table.patiently 2,
      Reachable (AlwaysRefreshes (Party.sample 2).isRefresh ⟨some "a1", some "r1"⟩ none)
        (Party.sample 2) ⟨some "a1", some "r1"⟩ LockTable.empty s ∧
      s.shared.requests.length = 5 ∧ s.shared.requests.countP (Party.sample 2).isRefresh ≤ 1 ∧
      ∀ i, ∃ token response earlier, s.calls i = .ready (.done (.ok response)) ∧
        response.status ≠ 401 ∧ s.shared.sentBy i =
          ⟨i, ((Party.sample 2).command i).withBearer token, .ok response⟩ :: earlier := by
  obtain ⟨places, steps, ended⟩ := pair_reaches_end
  have reachable := reachable_iff.mpr steps
  have done (i : Fin 2) : (ofPlaces (Party.sample 2) pairEnd places).calls i =
      .ready (.done (.ok ⟨200, []⟩)) := calls_eq_done (ended i)
  obtain ⟨single, ends⟩ := refreshes_once (Party.sample_apart 2) LockRule.table.patient_patiently
    (fun _ => rfl) (fun _ => rfl) (by decide) reachable
  refine ⟨_, reachable, rfl, single, ?_⟩
  intro i
  obtain ⟨token, response, earlier, same, other, sent⟩ | ⟨missing, -⟩ |
    ⟨token, failure, -, unbuilt, -⟩ := ends i _ (done i)
  · cases same
    exact ⟨token, _, earlier, done i, other, sent⟩
  · contradiction
  · exact nomatch (build_sample_refresh token).symm.trans unbuilt

end Crowd

def Party.unbuildable : Party 1 :=
  { Party.sample 1 with
    client := fun _ => { Client.sample with refreshBuilder := fun _ _ => .error .authExpired }
    lock_shared := fun _ => rfl
    refresh_built := by
      intro _ _ _ built
      exact nomatch built }

theorem Party.unbuildable_apart : Party.unbuildable.Apart :=
  ⟨(Party.sample_apart 1).own_public, (Party.sample_apart 1).own_authorized⟩

def Command.ownRefresh : Command := { Command.sampleRefresh "r1" with requiresAuth := true }

def Party.RefreshesOnce {n : Nat} (party : Party n) (initial : TokenPair) : Prop :=
  (∀ i, (party.command i).requiresAuth = true) →
    (∀ i, (party.client i).features.has .refreshTokenV3 = true) → initial.access ≠ none →
    ∀ s : Crowd LockRule.table.patiently n,
      Crowd.Reachable (AlwaysRefreshes party.isRefresh initial none) party initial LockTable.empty s →
      s.shared.requests.countP party.isRefresh ≤ 1 ∧
        ∀ i result, s.calls i = .ready (.done result) →
          ∃ response, result = .ok response ∧ response.status ≠ 401

namespace Crowd

theorem rejected_without_refresh_token : ¬ (Party.sample 1).RefreshesOnce ⟨some "a1", none⟩ := by
  intro once
  let party := Party.sample 1
  let initial : TokenPair := ⟨some "a1", none⟩
  let server := AlwaysRefreshes party.isRefresh initial none
  let old := Command.sample.withBearer "a1"
  let places : Fin 1 → Place := fun _ => .within (.going .readAccess)
  let s₀ : Shared LockRule.table.patiently := ⟨initial, .empty, [], []⟩
  have rejects : server [] old (.ok .rejection) [] :=
    always_refreshes_rejects (Party.sample_apart 1) (0 : Fin 1) rfl (by decide)
  have refused : Trek server Client.sample .sample 0 (s₀, places 0)
      ({ s₀ with sendings := [attempt 0 "a1" .rejection] },
        .within (.finished (.ok .rejection))) :=
    Trek.to_refused rfl rejects rfl
  have begun : Relation.ReflTransGen (Step server) (ofPlaces party s₀ places)
      (ofPlaces party s₀ places) := .refl
  obtain ⟨-, ends⟩ := once (fun _ => rfl) (fun _ => rfl) (by decide) _
    (reachable_iff.mpr (steps_of_trek begun 0 refused))
  obtain ⟨response, same, other⟩ := ends 0 _ (calls_eq_done rfl)
  cases same
  exact other rfl

theorem fails_if_unbuildable : ¬ Party.unbuildable.RefreshesOnce ⟨some "a1", some "r1"⟩ := by
  intro once
  let party := Party.unbuildable
  let initial : TokenPair := ⟨some "a1", some "r1"⟩
  let server := AlwaysRefreshes party.isRefresh initial none
  let old := Command.sample.withBearer "a1"
  let places : Fin 1 → Place := fun _ => .within (.going .readAccess)
  let held := LockTable.empty.request party.lock 0
  let s₀ : Shared LockRule.table.patiently := ⟨initial, .empty, [], []⟩
  let s₁ : Shared LockRule.table.patiently := ⟨initial, held, [], [attempt 0 "a1" .rejection]⟩
  have rejects : server [] old (.ok .rejection) [] :=
    always_refreshes_rejects Party.unbuildable_apart (0 : Fin 1) rfl (by decide)
  have line : Trek server (party.client 0) .sample 0 (s₀, places 0) (s₁, .inLine "a1" .rejection) :=
    Trek.to_line rfl rejects rfl rfl rfl
  have holder : (held.get party.lock).holder = some 0 := by decide +kernel
  have failed : Trek server (party.client 0) .sample 0 (s₁, .inLine "a1" .rejection)
      ({ s₁ with locks := held.release party.lock }, .within (.finished (.error .authExpired))) :=
    Trek.to_unbuilt holder rfl rfl rfl
  have begun : Relation.ReflTransGen (Step server) (ofPlaces party s₀ places)
      (ofPlaces party s₀ places) := .refl
  obtain ⟨-, ends⟩ := once (fun _ => rfl) (fun _ => rfl) (by decide) _
    (reachable_iff.mpr (steps_of_trek begun 0 (line.trans failed)))
  obtain ⟨response, same, -⟩ := ends 0 _ (calls_eq_done rfl)
  exact nomatch same

theorem own_refreshes_twice :
    ¬ (Party.executing 2 .ownRefresh).RefreshesOnce ⟨some "a1", some "r1"⟩ := by
  intro once
  let party := Party.executing 2 .ownRefresh
  let initial : TokenPair := ⟨some "a1", some "r1"⟩
  let server := AlwaysRefreshes party.isRefresh initial none
  let own := Command.ownRefresh.withBearer "a1"
  let places : Fin 2 → Place := fun _ => .within (.going .readAccess)
  let s₀ : Shared LockRule.table.patiently := ⟨initial, .empty, [], []⟩
  let s₁ : Shared LockRule.table.patiently :=
    { s₀ with
      ledger := [⟨"a2", some "r2"⟩]
      sendings := [⟨0, own, .ok (.renewal "a2" "r2")⟩] }
  let s₂ : Shared LockRule.table.patiently :=
    { s₀ with
      ledger := [⟨"a3", some "r3"⟩, ⟨"a2", some "r2"⟩]
      sendings := [⟨1, own, .ok (.renewal "a3" "r3")⟩, ⟨0, own, .ok (.renewal "a2" "r2")⟩] }
  have path : own.path = (Command.sampleRefresh "r1").path := rfl
  have refresh : party.isRefresh own = true := by
    change (own.path == "/_matrix/client/v3/refresh") = true
    rw [path]
    exact party.refresh_built 0 "r1" _ (build_sample_refresh "r1")
  have decoded : (Response.renewal "a3" "r3").decode RefreshedTokens.ofBytes? =
      .ok ⟨"a3", some "r3"⟩ := by
    have read : RefreshedTokens.ofBytes? (Response.renewal "a3" "r3").body =
        some ⟨"a3", some "r3"⟩ := by
      decide +kernel
    simp [Response.decode, read]
  have first : Trek server Client.sample .ownRefresh 0 (s₀, places 0)
      (s₁, .within (.finished (.ok (.renewal "a2" "r2")))) :=
    Trek.to_accepted rfl (always_refreshes_renews refresh rfl decode_renewal (by decide) (by decide))
      (by decide)
  have second : Trek server Client.sample .ownRefresh 1 (s₁, places 1)
      (s₂, .within (.finished (.ok (.renewal "a3" "r3")))) :=
    Trek.to_accepted rfl (always_refreshes_renews refresh rfl decoded (by decide) (by decide))
      (by decide)
  have begun : Relation.ReflTransGen (Step server) (ofPlaces party s₀ places)
      (ofPlaces party s₀ places) := .refl
  obtain ⟨counted, -⟩ := once (fun _ => rfl) (fun _ => rfl) (by decide) _
    (reachable_iff.mpr (steps_of_trek (steps_of_trek begun 0 first) 1 second))
  have both : [own, own].countP party.isRefresh = 2 := by
    rw [List.countP_cons_of_pos refresh, List.countP_cons_of_pos refresh, List.countP_nil]
  exact absurd (both ▸ counted) (by decide)

/-- Under a server that accepts its last token and answers every refresh with a new pair: without a
    refresh token a call ends with the rejection of its expired access token, with one it may still
    end with the failure to build the request, and two calls with refresh requests of their own send
    both. -/
theorem refreshes_once_has_exceptions :
    ¬ (Party.sample 1).RefreshesOnce ⟨some "a1", none⟩ ∧
      ¬ Party.unbuildable.RefreshesOnce ⟨some "a1", some "r1"⟩ ∧
      ¬ (Party.executing 2 .ownRefresh).RefreshesOnce ⟨some "a1", some "r1"⟩ :=
  ⟨rejected_without_refresh_token, fails_if_unbuildable, own_refreshes_twice⟩

end Crowd

end MatrixSession
