import MatrixSession.Proofs.Crowd.Trek
import Mathlib.Data.List.Nodup

/-!
Refresh tokens in a crowd. The server replaces a refresh token with every refresh it accepts, or
keeps it. No call then spends a token that was replaced, and outside the lock the store holds what
the server has issued last.
-/
namespace MatrixSession

def issued (initial : TokenPair) (ledger : List RefreshedTokens) : List String :=
  ledger.filterMap RefreshedTokens.refresh ++ initial.refresh.toList

def settled (initial : TokenPair) (ledger : List RefreshedTokens) : TokenPair :=
  ⟨(ledger.head?.map RefreshedTokens.access).or initial.access, (issued initial ledger).head?⟩

/-- A refresh request fails, is refused, or is answered with tokens. A refresh token among them is a
    new one. Other commands are answered in any way. -/
def Rotates (isRefresh : Command → Bool) (initial : TokenPair) : ServerRule :=
  fun ledger command reply ledger' =>
    if isRefresh command then
      ledger' = ledger ∧ (∀ response, reply = .ok response → response.status ≠ 200) ∨
      ∃ response tokens, reply = .ok response ∧ response.status = 200 ∧
        response.decode RefreshedTokens.ofBytes? = .ok tokens ∧
        (∀ token, tokens.refresh = some token → token ∉ issued initial ledger) ∧
        ledger' = tokens :: ledger
    else ledger' = ledger

section Ledger

variable (initial : TokenPair) (ledger : List RefreshedTokens)

theorem issued_nil : issued initial [] = initial.refresh.toList := rfl

theorem issued_cons (tokens : RefreshedTokens) :
    issued initial (tokens :: ledger) = tokens.refresh.toList ++ issued initial ledger := by
  unfold issued
  cases fresh : tokens.refresh with
  | none => rw [List.filterMap_cons_none fresh]; rfl
  | some token => rw [List.filterMap_cons_some fresh]; rfl

theorem settled_nil : settled initial [] = initial := by
  obtain ⟨access, refresh⟩ := initial
  cases refresh <;> rfl

theorem settled_cons (tokens : RefreshedTokens) :
    settled initial (tokens :: ledger) = (settled initial ledger).renewed tokens := by
  unfold settled TokenPair.renewed
  rw [issued_cons]
  cases tokens.refresh <;> rfl

theorem nodup_issued_cons {initial : TokenPair} {ledger : List RefreshedTokens}
    {tokens : RefreshedTokens} (distinct : (issued initial ledger).Nodup)
    (fresh : ∀ token, tokens.refresh = some token → token ∉ issued initial ledger) :
    (issued initial (tokens :: ledger)).Nodup := by
  rw [issued_cons]
  cases brought : tokens.refresh with
  | none => exact distinct
  | some token => exact List.nodup_cons.mpr ⟨fresh token brought, distinct⟩

end Ledger

open Client (Point Phase)

def Client.Point.Locked : Point → Prop
  | .readAgain .. | .spendRefresh _ | .sendRefresh .. | .storeAccess .. | .storeRefresh ..
  | .giveBack .. => True
  | _ => False

def Place.Locked : Place → Prop
  | .within (.going p) => p.Locked
  | _ => False

/-- What the store holds while a call is at a place under the lock. It is behind the server from the
    accepted refresh to the end of the two writes. -/
def Place.Agrees (c : Client) (initial tokens : TokenPair) (ledger : List RefreshedTokens) :
    Place → Prop
  | .within (.going (.sendRefresh _ request)) =>
    tokens = settled initial ledger ∧
      ∃ token, tokens.refresh = some token ∧ c.refreshBuilder c.server token = .ok request
  | .within (.going (.storeAccess _ brought)) =>
    ∃ older, ledger = brought :: older ∧ tokens = settled initial older
  | .within (.going (.storeRefresh _ token)) =>
    ∃ brought older, ledger = brought :: older ∧ brought.refresh = some token ∧
      tokens = (settled initial older).put .access (some brought.access)
  | .within (.going (.readAgain ..)) | .within (.going (.spendRefresh _))
  | .within (.going (.giveBack ..)) => tokens = settled initial ledger
  | _ => True

theorem Place.agrees_of_unlocked {c : Client} {initial tokens : TokenPair}
    {ledger : List RefreshedTokens} {place : Place} (unlocked : ¬ place.Locked) :
    place.Agrees c initial tokens ledger := by
  cases place with
  | inLine rejected rejection => trivial
  | within phase =>
    cases phase with
    | finished result => trivial
    | going p =>
      cases p with
      | readAgain | spendRefresh | sendRefresh | storeAccess | storeRefresh | giveBack =>
        exact absurd trivial unlocked
      | _ => trivial

variable {rule : LockRule} {n : Nat} {party : Party n} {initial : TokenPair}

/-- Who is under the lock holds it, the store and the server agree as far as that call has got, and
    no refresh token was handed out twice. -/
structure Safe (party : Party n) (initial : TokenPair) (shared : Shared rule)
    (places : Fin n → Place) : Prop where
  guarded : ∀ i, (places i).Locked → rule.holder shared.locks party.lock = some i.val
  agrees : ∀ i, (places i).Agrees (party.client i) initial shared.tokens shared.ledger
  settled : (∀ i, ¬ (places i).Locked) → shared.tokens = settled initial shared.ledger
  distinct : (issued initial shared.ledger).Nodup

namespace Safe

variable {shared shared' : Shared rule} {places : Fin n → Place} {i : Fin n} {place : Place}

theorem start (locks : rule.State) :
    Safe party initial ⟨initial, locks, [], []⟩
      fun i => .within (.going (Point.first (party.command i))) := by
  have unlocked (i : Fin n) :
      ¬ (Place.within (.going (Point.first (party.command i)))).Locked := by
    unfold Point.first
    split <;> exact id
  constructor
  · intro i locked
    exact absurd locked (unlocked i)
  · intro i
    exact Place.agrees_of_unlocked (unlocked i)
  · intro _
    exact (settled_nil initial).symm
  · rw [issued_nil]
    cases initial.refresh <;> simp

theorem alone (safe : Safe party initial shared places) {j : Fin n} (first : (places i).Locked)
    (second : (places j).Locked) : i = j := by
  have one := safe.guarded i first
  rw [safe.guarded j second] at one
  exact Fin.ext (Option.some.inj one).symm

theorem outside (safe : Safe party initial shared places) (before : ¬ (places i).Locked)
    (after : ¬ place.Locked) (tokens : shared'.tokens = shared.tokens)
    (ledger : shared'.ledger = shared.ledger)
    (keeps : ∀ other, other ≠ i.val → rule.holder shared.locks party.lock = some other →
      rule.holder shared'.locks party.lock = some other) :
    Safe party initial shared' (Function.update places i place) := by
  constructor
  · intro j locked
    by_cases mine : j = i
    · subst mine
      rw [Function.update_self] at locked
      exact absurd locked after
    · rw [Function.update_of_ne mine] at locked
      exact keeps j (fun same => mine (Fin.ext same)) (safe.guarded j locked)
  · intro j
    by_cases mine : j = i
    · subst mine
      rw [Function.update_self]
      exact Place.agrees_of_unlocked after
    · rw [Function.update_of_ne mine, tokens, ledger]
      exact safe.agrees j
  · intro free
    rw [tokens, ledger]
    refine safe.settled fun j => ?_
    by_cases mine : j = i
    · subst mine
      exact before
    · have unlocked := free j
      rwa [Function.update_of_ne mine] at unlocked
  · rw [ledger]
    exact safe.distinct

/-- A call moves under the lock. Since no other call is there, it may change what is shared. -/
theorem inside (safe : Safe party initial shared places) (before : (places i).Locked)
    (after : place.Locked) (locks : shared'.locks = shared.locks)
    (agrees : place.Agrees (party.client i) initial shared'.tokens shared'.ledger)
    (distinct : (issued initial shared'.ledger).Nodup) :
    Safe party initial shared' (Function.update places i place) := by
  have others {j : Fin n} (mine : j ≠ i) : ¬ (places j).Locked := by
    intro locked
    exact mine (safe.alone locked before)
  refine ⟨?_, ?_, ?_, distinct⟩
  · intro j locked
    by_cases mine : j = i
    · subst mine
      rw [locks]
      exact safe.guarded j before
    · rw [Function.update_of_ne mine] at locked
      exact absurd locked (others mine)
  · intro j
    by_cases mine : j = i
    · subst mine
      rw [Function.update_self]
      exact agrees
    · rw [Function.update_of_ne mine]
      exact Place.agrees_of_unlocked (others mine)
  · intro free
    have unlocked := free i
    rw [Function.update_self] at unlocked
    exact absurd after unlocked

theorem entering (safe : Safe party initial shared places) (before : ¬ (places i).Locked)
    (granted : rule.holder shared.locks party.lock = some i.val)
    (agrees : shared.tokens = MatrixSession.settled initial shared.ledger →
      place.Agrees (party.client i) initial shared.tokens shared.ledger) :
    Safe party initial shared (Function.update places i place) := by
  have others (j : Fin n) : ¬ (places j).Locked := by
    intro locked
    have holder := safe.guarded j locked
    rw [granted] at holder
    exact before (Fin.ext (Option.some.inj holder) ▸ locked)
  refine ⟨?_, ?_, ?_, safe.distinct⟩
  · intro j locked
    by_cases mine : j = i
    · subst mine
      exact granted
    · rw [Function.update_of_ne mine] at locked
      exact absurd locked (others j)
  · intro j
    by_cases mine : j = i
    · subst mine
      rw [Function.update_self]
      exact agrees (safe.settled others)
    · rw [Function.update_of_ne mine]
      exact safe.agrees j
  · intro _
    exact safe.settled others

theorem leaving (safe : Safe party initial shared places) (before : (places i).Locked)
    (after : ¬ place.Locked) (tokens : shared'.tokens = MatrixSession.settled initial shared.ledger)
    (ledger : shared'.ledger = shared.ledger) :
    Safe party initial shared' (Function.update places i place) := by
  have unlocked (j : Fin n) : ¬ (Function.update places i place j).Locked := by
    by_cases mine : j = i
    · subst mine
      rw [Function.update_self]
      exact after
    · rw [Function.update_of_ne mine]
      intro locked
      exact mine (safe.alone locked before)
  constructor
  · intro j locked
    exact absurd locked (unlocked j)
  · intro j
    exact Place.agrees_of_unlocked (unlocked j)
  · intro _
    rw [tokens, ledger]
  · rw [ledger]
    exact safe.distinct

end Safe

section Moves

variable {shared shared' : Shared rule} {i : Fin n} {p : Point}
  {reply : (p.operation (party.client i) (party.command i)).Reply}

theorem unlocked_answers (apart : party.Apart) (unlocked : ¬ p.Locked)
    (answers : Answers (Rotates party.isRefresh initial) i
      (p.operation (party.client i) (party.command i)) reply shared shared') :
    shared'.tokens = shared.tokens ∧ shared'.ledger = shared.ledger ∧
      shared'.locks = shared.locks := by
  cases p with
  | sendPublic =>
    obtain ⟨ledger, served, rfl⟩ := answers
    rw [Rotates, apart.own_public i] at served
    exact ⟨rfl, served, rfl⟩
  | sendFirst token | sendAgain token =>
    obtain ⟨ledger, served, rfl⟩ := answers
    rw [Rotates, apart.own_authorized i token] at served
    exact ⟨rfl, served, rfl⟩
  | readAccess | readRefresh rejected rejection | readRenewed =>
    obtain ⟨-, rfl⟩ := answers
    exact ⟨rfl, rfl, rfl⟩
  | takeLock rejected rejection => exact answers.elim
  | _ => exact absurd trivial unlocked

theorem unlocked_next (unlocked : ¬ p.Locked)
    (answers : Answers (Rotates party.isRefresh initial) i
      (p.operation (party.client i) (party.command i)) reply shared shared') :
    ¬ (Place.within (p.next (party.client i) (party.command i) reply)).Locked := by
  cases p with
  | sendPublic | sendAgain token => exact id
  | readAccess | readRenewed =>
    cases reply with
    | none => exact id
    | some token => exact id
  | sendFirst token =>
    cases reply with
    | error failure => exact id
    | ok response =>
      rw [Point.next]
      split <;> exact id
  | readRefresh rejected rejection =>
    rw [Point.next]
    split <;> exact id
  | takeLock rejected rejection => exact answers.elim
  | _ => exact absurd trivial unlocked

end Moves

namespace Safe

variable {shared shared' : Shared rule} {places : Fin n → Place} {i : Fin n} {rejected : String}
  {rejection : Response} {place : Place}

theorem agreed (safe : Safe party initial shared places) (here : places i = place) :
    place.Agrees (party.client i) initial shared.tokens shared.ledger := by
  rw [← here]
  exact safe.agrees i

theorem stays (safe : Safe party initial shared places) {p : Point}
    (here : places i = .within (.going p)) (before : p.Locked) (after : place.Locked)
    (locks : shared'.locks = shared.locks)
    (agrees : place.Agrees (party.client i) initial shared'.tokens shared'.ledger)
    (distinct : (issued initial shared'.ledger).Nodup) :
    Safe party initial shared' (Function.update places i place) := by
  refine safe.inside ?_ after locks agrees distinct
  rw [here]
  exact before

theorem read_again (safe : Safe party initial shared places)
    (here : places i = .within (.going (.readAgain rejected rejection))) (token : Option String) :
    Safe party initial shared (Function.update places i
      (.within ((Point.readAgain rejected rejection).next (party.client i) (party.command i) token))) := by
  have agreed := safe.agreed here
  rw [Point.next]
  split
  · exact safe.stays here trivial trivial rfl agreed safe.distinct
  · exact safe.stays here trivial trivial rfl agreed safe.distinct

theorem spend_refresh (safe : Safe party initial shared places)
    (here : places i = .within (.going (.spendRefresh rejection))) {token : Option String}
    (read : token = shared.tokens.refresh) :
    Safe party initial shared (Function.update places i
      (.within (.going (Point.afterSpending (party.client i) rejection token)))) := by
  have agreed := safe.agreed here
  cases token with
  | none => exact safe.stays here trivial trivial rfl agreed safe.distinct
  | some token =>
    rw [Point.afterSpending]
    split
    · rename_i request built
      exact safe.stays here trivial trivial rfl ⟨agreed, token, read.symm, built⟩ safe.distinct
    · exact safe.stays here trivial trivial rfl agreed safe.distinct

theorem send_refresh (safe : Safe party initial shared places) {request : Command}
    (here : places i = .within (.going (.sendRefresh rejection request)))
    {reply : Except Failure Response} {options : SendOptions}
    (answers : Answers (Rotates party.isRefresh initial) i (.send request options) reply shared
      shared') :
    Safe party initial shared'
      (Function.update places i (.within (.going (Point.afterRefresh rejection reply)))) := by
  obtain ⟨stored, token, read, built⟩ := safe.agreed here
  obtain ⟨ledger, served, rfl⟩ := answers
  rw [Rotates, if_pos (party.refresh_built i token request built)] at served
  obtain ⟨rfl, failed⟩ | ⟨response, tokens, rfl, success, decoded, fresh, rfl⟩ := served
  · rw [Client.after_refresh_unbrought (Client.brought_eq_none failed)]
    exact safe.stays here trivial trivial rfl stored safe.distinct
  · -- From here on the server is one refresh ahead of the store.
    have brought := Client.brought_eq_some.mpr ⟨response, rfl, success, decoded⟩
    rw [(Client.after_refresh_brought brought rejection).1]
    exact safe.stays here trivial trivial rfl ⟨_, rfl, stored⟩
      (nodup_issued_cons safe.distinct fresh)

theorem store_access (safe : Safe party initial shared places) {tokens : RefreshedTokens}
    (here : places i = .within (.going (.storeAccess rejection tokens))) :
    Safe party initial { shared with tokens := shared.tokens.put .access (some tokens.access) }
      (Function.update places i (.within (.going (Point.afterAccess rejection tokens)))) := by
  obtain ⟨older, latest, stored⟩ := safe.agreed here
  rw [Point.afterAccess]
  split
  · rename_i token fresh
    refine safe.stays here trivial trivial rfl ?_ safe.distinct
    exact ⟨tokens, older, latest, fresh, by rw [stored]⟩
  · -- The old refresh token stays the last one, so the store has caught up.
    rename_i kept
    refine safe.stays here trivial trivial rfl ?_ safe.distinct
    simp only [Place.Agrees, latest, stored, settled_cons, TokenPair.renewed, kept]
    rfl

theorem store_refresh (safe : Safe party initial shared places) {token : String}
    (here : places i = .within (.going (.storeRefresh rejection token))) :
    Safe party initial { shared with tokens := shared.tokens.put .refresh (some token) }
      (Function.update places i (.within (.going (.giveBack rejection (.ok true))))) := by
  obtain ⟨brought, older, latest, fresh, stored⟩ := safe.agreed here
  refine safe.stays here trivial trivial rfl ?_ safe.distinct
  simp only [Place.Agrees, latest, stored, settled_cons, TokenPair.renewed, fresh]
  rfl

theorem give_back (safe : Safe party initial shared places) {renewed : Except Failure Bool}
    (here : places i = .within (.going (.giveBack rejection renewed))) (locks : rule.State) :
    Safe party initial { shared with locks } (Function.update places i
      (.within ((Point.giveBack rejection renewed).next (party.client i) (party.command i) ()))) := by
  refine safe.leaving ?_ ?_ (safe.agreed here) rfl
  · rw [here]
    trivial
  · cases renewed with
    | error failure => exact id
    | ok renewed => cases renewed <;> exact id

theorem operate (safe : Safe party initial shared places) (apart : party.Apart) {p : Point}
    (here : places i = .within (.going p))
    (reply : (p.operation (party.client i) (party.command i)).Reply)
    (answers : Answers (Rotates party.isRefresh initial) i
      (p.operation (party.client i) (party.command i)) reply shared shared') :
    Safe party initial shared' (Function.update places i
      (.within (p.next (party.client i) (party.command i) reply))) := by
  by_cases locked : p.Locked
  · cases p with
    | readAgain rejected rejection =>
      obtain ⟨-, rfl⟩ := answers
      exact safe.read_again here reply
    | spendRefresh rejection =>
      obtain ⟨read, rfl⟩ := answers
      exact safe.spend_refresh here read
    | sendRefresh rejection request => exact safe.send_refresh here answers
    | storeAccess rejection tokens =>
      obtain rfl := answers
      exact safe.store_access here
    | storeRefresh rejection token =>
      obtain rfl := answers
      exact safe.store_refresh here
    | giveBack rejection renewed =>
      obtain ⟨locks, -, rfl⟩ := answers
      exact safe.give_back here locks
    | _ => exact locked.elim
  · -- No write and no refresh happens out here, so what is true of the others stays true.
    obtain ⟨tokens, ledger, locks⟩ := unlocked_answers apart locked answers
    refine safe.outside ?_ (unlocked_next locked answers) tokens ledger ?_
    · rw [here]
      exact locked
    · intro other _ held
      rw [locks]
      exact held

theorem move (safe : Safe party initial shared places) (apart : party.Apart) {place : Place}
    (move : Move (Rotates party.isRefresh initial) (party.client i) (party.command i) i shared
      (places i) shared' place) :
    Safe party initial shared' (Function.update places i place) := by
  generalize here : places i = old at move
  cases move with
  | operate p reply answers => exact safe.operate apart here reply answers
  | request rejected rejection requests =>
    refine safe.outside (by rw [here]; exact id) id rfl rfl ?_
    intro other _ held
    rw [party.lock_shared i] at requests
    exact rule.requests_keep requests held
  | enter rejected rejection granted =>
    rw [party.lock_shared i] at granted
    exact safe.entering (by rw [here]; exact id) granted id
  | giveUp rejected rejection withdraws =>
    refine safe.outside (by rw [here]; exact id) id rfl rfl ?_
    intro other differs held
    rw [party.lock_shared i] at withdraws
    exact rule.withdraws_keep withdraws held differs

end Safe

def Party.Renews (party : Party n) : Operation → Prop
  | .send request _ => party.isRefresh request = true
  | .writeToken .. => True
  | _ => False

namespace Crowd

variable {s : Crowd rule n}

/-- The call is about to send a refresh request, or has tokens to store. -/
def Refreshing (party : Party n) (s : Crowd rule n) (i : Fin n) : Prop :=
  ∃ op next, s.calls i = .ready (.perform op next) ∧ party.Renews op

theorem operation_eq_refresh (apart : party.Apart) {p : Point} {i : Fin n} {request : Command}
    {options : SendOptions}
    (same : p.operation (party.client i) (party.command i) = .send request options)
    (refresh : party.isRefresh request = true) : ∃ rejection, p = .sendRefresh rejection request := by
  cases p with
  | sendPublic =>
    obtain ⟨rfl, -⟩ := Operation.send.inj same
    rw [apart.own_public i] at refresh
    contradiction
  | sendFirst token | sendAgain token =>
    obtain ⟨rfl, -⟩ := Operation.send.inj same
    rw [apart.own_authorized i token] at refresh
    contradiction
  | sendRefresh rejection built =>
    obtain ⟨rfl, -⟩ := Operation.send.inj same
    exact ⟨rejection, rfl⟩
  | _ => exact nomatch same

theorem locked_of_refreshing (apart : party.Apart) {shared : Shared rule}
    {places : Fin n → Place} {i : Fin n}
    (refreshing : (ofPlaces party shared places).Refreshing party i) : (places i).Locked := by
  obtain ⟨op, next, ready, what⟩ := refreshing
  obtain ⟨p, here, same⟩ := stand_eq_ready ready
  obtain ⟨rfl, -⟩ := Procedure.perform.inj same
  rw [here]
  cases asked : p.operation (party.client i) (party.command i) with
  | send request options =>
    rw [asked] at what
    obtain ⟨rejection, rfl⟩ := operation_eq_refresh apart asked what
    trivial
  | writeToken kind token =>
    cases p with
    | storeAccess | storeRefresh => trivial
    | _ => exact nomatch asked
  | _ =>
    rw [asked] at what
    exact what.elim

/-- In every state that any number of calls can get to, while none executes a refresh request of its
    own: one call at most is between sending a refresh request and storing what it brought; the token
    that a refresh request is built from is the last one issued, and none that was replaced; and while
    nobody holds the lock, the store holds the last tokens. -/
theorem spends_latest {locks : rule.State} (apart : party.Apart)
    (reachable : Reachable (Rotates party.isRefresh initial) party initial locks s) :
    (∀ i j, s.Refreshing party i → s.Refreshing party j → i = j) ∧
      (∀ i request options next, s.calls i = .ready (.perform (.send request options) next) →
        party.isRefresh request = true →
        ∃ token, (party.client i).refreshBuilder (party.client i).server token = .ok request ∧
          (issued initial s.shared.ledger).head? = some token ∧
          token ∉ (issued initial s.shared.ledger).tail) ∧
      (rule.holder s.shared.locks party.lock = none →
        s.shared.tokens = settled initial s.shared.ledger) := by
  obtain ⟨places, same, safe⟩ := reachable_of_places (Safe party initial) (Safe.start locks)
    (fun _ _ _ _ _ safe move => safe.move apart move) reachable
  refine ⟨?_, ?_, ?_⟩
  · intro i j first second
    rw [same] at first second
    exact safe.alone (locked_of_refreshing apart first) (locked_of_refreshing apart second)
  · intro i request options next ready refresh
    rw [same] at ready
    obtain ⟨p, here, asked⟩ := stand_eq_ready ready
    obtain ⟨rejection, rfl⟩ := operation_eq_refresh apart (Procedure.perform.inj asked).1 refresh
    have agreed := safe.agrees i
    rw [here] at agreed
    obtain ⟨stored, token, read, built⟩ := agreed
    have latest : (issued initial s.shared.ledger).head? = some token := by
      rw [stored] at read
      exact read
    refine ⟨token, built, latest, ?_⟩
    have distinct := safe.distinct
    rw [List.head?_eq_some_iff] at latest
    obtain ⟨replaced, all⟩ := latest
    rw [all] at distinct ⊢
    exact (List.nodup_cons.mp distinct).1
  · intro free
    refine safe.settled fun i locked => ?_
    have held := safe.guarded i locked
    rw [free] at held
    contradiction

end Crowd

def Command.sample : Command where
  method := "GET"
  url := ⟨"https", none, false, .segments ["_matrix", "client", "v3", "account", "whoami"], none, none⟩
  body := none
  headers := .empty
  requiresAuth := true

def Command.sampleRefresh (token : String) : Command where
  method := "POST"
  url := ⟨"https", none, false, .segments ["_matrix", "client", "v3", "refresh"], none, none⟩
  body := some (.ofMembers [("refresh_token", .string token)])
  headers := .empty
  requiresAuth := false

theorem build_sample_refresh (token : String) :
    Client.sample.refreshBuilder Client.sample.server token = .ok (.sampleRefresh token) := rfl

def Party.sample (n : Nat) : Party n where
  client _ := Client.sample
  command _ := .sample
  lock := Client.sample.config.lockName
  isRefresh request := request.path == "/_matrix/client/v3/refresh"
  lock_shared _ := rfl
  refresh_built i token request built := by
    rw [build_sample_refresh] at built
    obtain rfl := Except.ok.inj built
    change (Url.Path.text (.segments ["_matrix", "client", "v3", "refresh"]) ==
      "/_matrix/client/v3/refresh") = true
    decide +kernel

theorem Party.sample_apart (n : Nat) : (Party.sample n).Apart where
  own_public _ := by
    change (Command.path .sample == "/_matrix/client/v3/refresh") = false
    decide +kernel
  own_authorized _ token := by
    change (Command.path .sample == "/_matrix/client/v3/refresh") = false
    decide +kernel

def Party.executing (n : Nat) (command : Command) : Party n :=
  { Party.sample n with command := fun _ => command }

def Response.rejection : Response := ⟨401, []⟩

def Response.renewal (access refresh : String) : Response :=
  ⟨200, Utf8.encode ("\x7b\x22access_token\x22:\x22" ++ access ++ "\x22,\x22refresh_token\x22:\x22" ++
    refresh ++ "\x22\x7d")⟩

theorem decode_renewal :
    (Response.renewal "a2" "r2").decode RefreshedTokens.ofBytes? = .ok ⟨"a2", some "r2"⟩ := by
  have read : RefreshedTokens.ofBytes? (Response.renewal "a2" "r2").body =
      some ⟨"a2", some "r2"⟩ := by
    decide +kernel
  simp [Response.decode, read]

namespace Crowd

theorem sample_spends_first :
    ∃ (s : Crowd LockRule.table 2) (request : Command),
      Reachable (Rotates (Party.sample 2).isRefresh ⟨some "a1", some "r1"⟩) (Party.sample 2)
        ⟨some "a1", some "r1"⟩ LockTable.empty s ∧
      s.Refreshing (Party.sample 2) 0 ∧ ¬ s.Refreshing (Party.sample 2) 1 ∧
      ∃ token, Client.sample.refreshBuilder Client.sample.server token = .ok request ∧
        (issued ⟨some "a1", some "r1"⟩ s.shared.ledger).head? = some token ∧
        token ∉ (issued ⟨some "a1", some "r1"⟩ s.shared.ledger).tail := by
  let party := Party.sample 2
  let initial : TokenPair := ⟨some "a1", some "r1"⟩
  let server := Rotates party.isRefresh initial
  let first : Shared LockRule.table := ⟨initial, .empty, [], []⟩
  let asked : Shared LockRule.table :=
    { first with
      locks := LockTable.empty.request party.lock 0
      sendings := [⟨0, Command.sample.withBearer "a1", .ok .rejection⟩] }
  let places : Fin 2 → Place := fun _ => .within (.going .readAccess)
  have rejects : server [] ((party.command 0).withBearer "a1") (.ok .rejection) [] := by
    have other := (Party.sample_apart 2).own_authorized 0 "a1"
    change Rotates party.isRefresh initial [] ((party.command 0).withBearer "a1") _ []
    rw [Rotates, other]
    exact rfl
  have line : Trek server (party.client 0) (party.command 0) 0 (first, places 0)
      (asked, .inLine "a1" .rejection) :=
    Trek.to_line rfl rejects rfl (by decide) rfl
  have spending : Trek server (party.client 0) (party.command 0) 0 (asked, .inLine "a1" .rejection)
      (asked, .within (.going (.sendRefresh .rejection (.sampleRefresh "r1")))) := by
    refine Trek.to_refresh ?_ rfl (build_sample_refresh "r1")
    change (asked.locks.get party.lock).holder = some 0
    decide +kernel
  let s : Crowd LockRule.table 2 := ofPlaces party asked
    (Function.update places 0 (.within (.going (.sendRefresh .rejection (.sampleRefresh "r1")))))
  have reachable : Reachable server party initial LockTable.empty s :=
    reachable_iff.mpr (steps_of_trek .refl 0 (Relation.ReflTransGen.trans line spending))
  have ready : s.calls 0 = .ready (.perform (.send (.sampleRefresh "r1") (Client.sample.options false))
      fun reply => Client.remaining Client.sample .sample
        (.going (Point.afterRefresh .rejection reply))) :=
    congrArg Stand.ready (Client.remaining_going ..)
  have refresh := party.refresh_built 0 "r1" _ (build_sample_refresh "r1")
  have refreshing : s.Refreshing party 0 := ⟨_, _, ready, refresh⟩
  obtain ⟨alone, latest, -⟩ := spends_latest (Party.sample_apart 2) reachable
  refine ⟨s, _, reachable, refreshing, ?_, latest 0 _ _ _ ready refresh⟩
  intro other
  exact absurd (alone 0 1 refreshing other) (by decide)

/-- Without `Apart` the store may stay behind: a call that is given a refresh request hands out the
    response, and stores none of it. -/
theorem own_refresh_is_not_stored :
    ∃ s : Crowd LockRule.table 1,
      Reachable (Rotates (Party.executing 1 (.sampleRefresh "r1")).isRefresh
          ⟨some "a1", some "r1"⟩)
        (Party.executing 1 (.sampleRefresh "r1")) ⟨some "a1", some "r1"⟩ LockTable.empty s ∧
      (s.shared.locks.get (Party.executing 1 (.sampleRefresh "r1")).lock).holder = none ∧
      s.shared.tokens ≠ settled ⟨some "a1", some "r1"⟩ s.shared.ledger := by
  let party := Party.executing 1 (.sampleRefresh "r1")
  let initial : TokenPair := ⟨some "a1", some "r1"⟩
  let server := Rotates party.isRefresh initial
  let pair : RefreshedTokens := ⟨"a2", some "r2"⟩
  let first : Shared LockRule.table := ⟨initial, .empty, [], []⟩
  let last : Shared LockRule.table :=
    { first with
      ledger := [pair]
      sendings := [⟨0, .sampleRefresh "r1", .ok (.renewal "a2" "r2")⟩] }
  let places : Fin 1 → Place := fun _ => .within (.going .sendPublic)
  have refresh := party.refresh_built 0 "r1" _ (build_sample_refresh "r1")
  have renews : server [] (.sampleRefresh "r1") (.ok (.renewal "a2" "r2")) [pair] := by
    have fresh (token : String) (brought : pair.refresh = some token) : token ∉ issued initial [] := by
      obtain rfl := Option.some.inj brought
      decide
    change Rotates party.isRefresh initial [] (.sampleRefresh "r1") (.ok (.renewal "a2" "r2")) [pair]
    rw [Rotates, if_pos refresh]
    exact .inr ⟨_, pair, rfl, rfl, decode_renewal, fresh, rfl⟩
  have sent : Trek server Client.sample (.sampleRefresh "r1") 0 (first, places 0)
      (last, .within (.finished (.ok (.renewal "a2" "r2")))) :=
    Trek.refl.andThen (.operate .sendPublic _ ⟨_, renews, rfl⟩)
  have begun : Relation.ReflTransGen (Step server) (ofPlaces party first places)
      (ofPlaces party first places) := .refl
  refine ⟨_, reachable_iff.mpr (steps_of_trek begun 0 sent), rfl, ?_⟩
  decide

end Crowd

end MatrixSession
