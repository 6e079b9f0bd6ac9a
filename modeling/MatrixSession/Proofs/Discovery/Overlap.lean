import MatrixSession.Proofs.Discovery.Basic
import MatrixSession.Proofs.Transcript
import Mathlib.Data.List.Basic
import Mathlib.Logic.Function.Basic

/-!
Any number of discoveries at once over one cache, whose entries may be dropped at any time. The calls
take turns in any order, one operation at a time, and a request is answered at the moment when the
server makes its reply. Dropping an entry reaches what is stored, not a reply on its way: a call that
was answered before may still store that reply afterwards, and the last write wins.
-/
namespace MatrixSession

/-- What is left of a procedure after some of its operations were answered in the given way. -/
def Procedure.Leaves {α : Type} : Procedure α → List Exchange → Procedure α → Prop
  | p, [], rest => rest = p
  | p, e :: exchanges, rest =>
    ∃ next, p = .perform e.operation next ∧ (next e.reply).Leaves exchanges rest

theorem Procedure.leaves_done {α : Type} {result : α} {exchanges : List Exchange}
    {rest : Procedure α} (leaves : (Procedure.done result).Leaves exchanges rest) :
    exchanges = [] ∧ rest = .done result := by
  cases exchanges with
  | nil => exact ⟨rfl, leaves⟩
  | cons e exchanges =>
    obtain ⟨next, same, -⟩ := leaves
    contradiction

structure Inquiry where
  server : Url
  maxAge : Option Nat
  timeout : Option Nat

namespace Inquiry

variable (q : Inquiry)

def key : String := cacheKey q.server.text

def call : Procedure (Except Failure ServerSupports) := (discover q.server q.maxAge q.timeout).run

def looked (found : Option ServerSupports) : Exchange := ⟨.consult q.key q.maxAge, found⟩

def asked (command : Command) (reply : Except Failure Response) : Exchange :=
  ⟨.send command ⟨true, q.timeout⟩, reply⟩

def stored (supports : ServerSupports) : Exchange := ⟨.remember q.key supports, ()⟩

structure Tells (command : Command) (response : Response) (supports : ServerSupports) : Prop where
  built : Endpoint.versions.build q.server = .ok command
  read : response.decode ServerSupports.ofBytes? = .ok supports

def sample : Inquiry := ⟨.hs, none, none⟩

theorem sample_tells : ∃ command, sample.Tells command .listing .listed := by
  obtain ⟨command, built⟩ := versions_built Url.hs (show Url.hs.path = .segments [""] from rfl)
  exact ⟨command, built, Response.listing_read⟩

inductive Path : List Exchange → Procedure (Except Failure ServerSupports) → Prop
  | waiting : Path [] q.call
  | shown (supports : ServerSupports) : Path [q.looked (some supports)] (.done (.ok supports))
  | missed : Path [q.looked none] (fetching q.server q.timeout)
  | refused (command : Command) (reply : Except Failure Response) (failure : Failure) :
      Path [q.looked none, q.asked command reply] (.done (.error failure))
  | told {command : Command} {response : Response} {supports : ServerSupports}
      (tells : q.Tells command response supports) :
      Path [q.looked none, q.asked command (.ok response)]
        (.perform (.remember q.key supports) fun _ => .done (.ok supports))
  | kept {command : Command} {response : Response} {supports : ServerSupports}
      (tells : q.Tells command response supports) :
      Path [q.looked none, q.asked command (.ok response), q.stored supports]
        (.done (.ok supports))

section Paths

variable {q : Inquiry} {exchanges : List Exchange}
  {rest : Procedure (Except Failure ServerSupports)}

theorem path_of_told {command : Command} {response : Response} {supports : ServerSupports}
    (tells : q.Tells command response supports)
    (leaves : (Procedure.perform (.remember q.key supports) fun _ =>
      .done (.ok supports)).Leaves exchanges rest) :
    q.Path (q.looked none :: q.asked command (.ok response) :: exchanges) rest := by
  cases exchanges with
  | nil =>
    obtain rfl := leaves
    exact .told tells
  | cons e exchanges =>
    obtain ⟨next, same, leaves⟩ := leaves
    obtain ⟨op, reply⟩ := e
    cases same
    obtain ⟨rfl, rfl⟩ := Procedure.leaves_done leaves
    exact .kept tells

theorem path_of_missed (leaves : (fetching q.server q.timeout).Leaves exchanges rest) :
    q.Path (q.looked none :: exchanges) rest := by
  cases exchanges with
  | nil =>
    obtain rfl := leaves
    exact .missed
  | cons e exchanges =>
    obtain ⟨next, same, leaves⟩ := leaves
    obtain ⟨op, reply⟩ := e
    unfold fetching at same
    cases built : Endpoint.versions.build q.server with
    | error failure =>
      rw [built] at same
      contradiction
    | ok command =>
      rw [built] at same
      cases same
      cases reply with
      | error failure =>
        obtain ⟨rfl, rfl⟩ := Procedure.leaves_done leaves
        exact .refused command (.error failure) failure
      | ok response =>
        dsimp only at leaves
        cases read : response.decode ServerSupports.ofBytes? with
        | error failure =>
          rw [read] at leaves
          obtain ⟨rfl, rfl⟩ := Procedure.leaves_done leaves
          exact .refused command (.ok response) failure
        | ok supports =>
          rw [read] at leaves
          exact path_of_told ⟨built, read⟩ leaves

theorem path_of_leaves (leaves : q.call.Leaves exchanges rest) : q.Path exchanges rest := by
  cases exchanges with
  | nil =>
    obtain rfl := leaves
    exact .waiting
  | cons e exchanges =>
    obtain ⟨next, same, leaves⟩ := leaves
    obtain ⟨op, reply⟩ := e
    rw [call, discover_steps] at same
    cases same
    cases reply with
    | none => exact path_of_missed leaves
    | some supports =>
      obtain ⟨rfl, rfl⟩ := Procedure.leaves_done leaves
      exact .shown supports

/-- A discovery that ends with a result was shown it by the cache, or was told it by the server. -/
theorem path_to_result {supports : ServerSupports}
    (path : q.Path exchanges (.done (.ok supports))) :
    exchanges = [q.looked (some supports)] ∨
      ∃ command response, q.Tells command response supports ∧
        exchanges = [q.looked none, q.asked command (.ok response), q.stored supports] := by
  generalize same : Procedure.done (Except.ok supports) = rest at path
  cases path with
  | shown supports' =>
    cases same
    exact .inl rfl
  | @kept command response supports' tells =>
    cases same
    exact .inr ⟨command, response, tells, rfl⟩
  | waiting =>
    rw [call, discover_steps] at same
    contradiction
  | missed =>
    unfold fetching at same
    split at same <;> cases same
  | refused | told => cases same

theorem path_to_store {early late : List Exchange} {key : String} {supports : ServerSupports}
    (path : q.Path (early ++ ⟨.remember key supports, ()⟩ :: late) rest) :
    key = q.key ∧ ∃ command response, q.Tells command response supports ∧
      early = [q.looked none, q.asked command (.ok response)] := by
  have mem : (⟨.remember key supports, ()⟩ : Exchange) ∈
      early ++ ⟨.remember key supports, ()⟩ :: late :=
    List.mem_append_right _ List.mem_cons_self
  generalize same : early ++ ⟨.remember key supports, ()⟩ :: late = exchanges at path mem
  cases path with
  | @kept command response supports' tells =>
    have unlike : (⟨.remember key supports, ()⟩ : Exchange) ∉
        [q.looked none, q.asked command (.ok response)] := by
      simp [looked, asked]
    have last : (⟨.remember key supports, ()⟩ : Exchange) = q.stored supports' := by
      simpa [looked, asked] using mem
    obtain ⟨rfl, rfl⟩ : key = q.key ∧ supports = supports' := by
      simpa [stored] using last
    obtain ⟨before, -, -⟩ :=
      (List.append_cons_inj_of_notMem unlike List.not_mem_nil).mp same.symm
    exact ⟨rfl, command, response, tells, before.symm⟩
  | _ => simp [looked, asked] at mem

end Paths

end Inquiry

structure Overlap (n : Nat) where
  cache : VersionCache
  now : Nat
  calls : Fin n → Procedure (Except Failure ServerSupports)

namespace Overlap

variable {n : Nat}

/-- A call does an operation and goes on with the reply, or entries are dropped, or time passes. -/
inductive Event (n : Nat) where
  | did (who : Fin n) (exchange : Exchange)
  | invalidated (key : String)
  | cleared
  | passed (time : Nat)

namespace Event

def deed? (who : Fin n) : Event n → Option Exchange
  | did other exchange => if other = who then some exchange else none
  | _ => none

def Drops (key : String) : Event n → Prop
  | invalidated other => other = key
  | cleared => True
  | _ => False

def change (key : String) (held : Option ServerSupports) : Event n → Option ServerSupports
  | did _ ⟨.remember other supports, _⟩ => if other = key then some supports else held
  | invalidated other => if other = key then none else held
  | cleared => none
  | _ => held

def Passes (key : String) (e : Event n) : Prop := ∀ held, e.change key held = held

theorem change_of_drops {key : String} {e : Event n} (drops : e.Drops key)
    (held : Option ServerSupports) : e.change key held = none := by
  cases e with
  | invalidated other => exact if_pos drops
  | cleared => rfl
  | did | passed => exact drops.elim

theorem change_cases (key : String) (e : Event n) :
    e.Passes key ∨ e.Drops key ∨ ∃ author supports, e = did author ⟨.remember key supports, ()⟩ := by
  cases e with
  | cleared => exact .inr (.inl trivial)
  | passed time => exact .inl fun held => rfl
  | invalidated other =>
    by_cases same : other = key
    · exact .inr (.inl same)
    · exact .inl fun held => if_neg same
  | did author exchange =>
    obtain ⟨op, reply⟩ := exchange
    cases op with
    | remember other supports =>
      by_cases same : other = key
      · subst same
        exact .inr (.inr ⟨author, supports, rfl⟩)
      · exact .inl fun held => if_neg same
    | _ => exact .inl fun held => rfl

end Event

def deeds (who : Fin n) (log : List (Event n)) : List Exchange := log.filterMap (Event.deed? who)

/-- The cache answers for itself; a server may answer anything. -/
def Answers (s : Overlap n) : (op : Operation) → op.Reply → VersionCache → Prop
  | .consult key maxAge, found, cache => found = s.cache.lookup s.now key maxAge ∧ cache = s.cache
  | .remember key supports, _, cache => cache = s.cache.store s.now key supports
  | _, _, cache => cache = s.cache

inductive Step (s : Overlap n) : Event n → Overlap n → Prop
  | operate (who : Fin n) {exchange : Exchange}
      {next : exchange.operation.Reply → Procedure (Except Failure ServerSupports)}
      {cache : VersionCache} (ready : s.calls who = .perform exchange.operation next)
      (answers : s.Answers exchange.operation exchange.reply cache) :
      Step s (.did who exchange) ⟨cache, s.now, Function.update s.calls who (next exchange.reply)⟩
  | invalidate (key : String) : Step s (.invalidated key) { s with cache := s.cache.invalidate key }
  | clear : Step s .cleared { s with cache := .empty }
  | pass (time : Nat) : Step s (.passed time) { s with now := s.now + time }

inductive Run : Overlap n → List (Event n) → Overlap n → Prop
  | stay (s : Overlap n) : Run s [] s
  | step {s s' s'' : Overlap n} {e : Event n} {log : List (Event n)} (step : Step s e s')
      (run : Run s' log s'') : Run s (e :: log) s''

def start (inquiries : Fin n → Inquiry) (cache : VersionCache) (now : Nat) : Overlap n :=
  ⟨cache, now, fun who => (inquiries who).call⟩

section Runs

variable {s s' : Overlap n} {log : List (Event n)}

theorem Run.append {first rest : List (Event n)} :
    Run s (first ++ rest) s' ↔ ∃ middle, Run s first middle ∧ Run middle rest s' := by
  constructor
  · intro run
    induction first generalizing s with
    | nil => exact ⟨s, .stay s, run⟩
    | cons e first ih =>
      cases run with
      | step step run =>
        obtain ⟨middle, left, right⟩ := ih run
        exact ⟨middle, .step step left, right⟩
  · rintro ⟨middle, left, right⟩
    induction left with
    | stay => exact right
    | step step _ ih => exact .step step (ih right)

theorem deeds_append (who : Fin n) (first rest : List (Event n)) :
    deeds who (first ++ rest) = deeds who first ++ deeds who rest :=
  List.filterMap_append

theorem deed_eq_some {who : Fin n} {e : Event n} {exchange : Exchange} :
    e.deed? who = some exchange ↔ e = .did who exchange := by
  cases e with
  | did other found =>
    by_cases same : other = who
    · subst same
      simp [Event.deed?]
    · simp [Event.deed?, same]
  | invalidated | cleared | passed => simp [Event.deed?]

theorem deeds_drop {key : String} {drop : Event n} (drops : drop.Drops key) (who : Fin n) :
    deeds who (drop :: log) = deeds who log := by
  cases drop with
  | did | passed => exact drops.elim
  | invalidated | cleared => rfl

theorem leaves_deeds (run : Run s log s') (who : Fin n) :
    (s.calls who).Leaves (deeds who log) (s'.calls who) := by
  induction run with
  | stay s => rfl
  | @step s _ s'' e log step run ih =>
    cases step with
    | @operate other exchange next cache ready answers =>
      by_cases same : other = who
      · subst same
        have own : deeds other (.did other exchange :: log) = exchange :: deeds other log :=
          List.filterMap_cons_some (if_pos rfl)
        rw [own]
        exact ⟨next, ready, by simpa only [Function.update_self] using ih⟩
      · have foreign : deeds who (.did other exchange :: log) = deeds who log :=
          List.filterMap_cons_none (if_neg same)
        rw [foreign]
        simpa only [Function.update_of_ne (Ne.symm same)] using ih
    | invalidate | clear | pass => exact ih

theorem held_step {e : Event n} (step : Step s e s') (key : String) :
    s'.cache.held? key = e.change key (s.cache.held? key) := by
  cases step with
  | invalidate other => exact s.cache.held_invalidate other key
  | clear => rfl
  | pass => rfl
  | @operate who exchange next cache ready answers =>
    obtain ⟨op, reply⟩ := exchange
    cases op with
    | remember other supports =>
      obtain rfl := answers
      exact s.cache.held_store s.now other key supports
    | consult other maxAge =>
      obtain ⟨-, rfl⟩ := answers
      rfl
    | _ =>
      obtain rfl := answers
      rfl

theorem held_run (run : Run s log s') (key : String) :
    s'.cache.held? key = log.foldl (Event.change key) (s.cache.held? key) := by
  induction run with
  | stay s => rfl
  | step step _ ih => rw [ih, held_step step, List.foldl_cons]

theorem written_last {key : String} {supports : ServerSupports} {held : Option ServerSupports}
    (result : log.foldl (Event.change key) held = some supports) :
    held = some supports ∧ (∀ e ∈ log, e.Passes key) ∨
      ∃ earlier author later, log = earlier ++ .did author ⟨.remember key supports, ()⟩ :: later ∧
        ∀ e ∈ later, e.Passes key := by
  induction log generalizing held with
  | nil => exact .inl ⟨result, List.forall_mem_nil _⟩
  | cons e log ih =>
    rw [List.foldl_cons] at result
    obtain ⟨before, passes⟩ | ⟨earlier, author, later, rfl, passes⟩ := ih result
    · obtain pass | drops | ⟨author, supports', rfl⟩ := e.change_cases key
      · rw [pass] at before
        exact .inl ⟨before, List.forall_mem_cons.mpr ⟨pass, passes⟩⟩
      · rw [Event.change_of_drops drops] at before
        contradiction
      · obtain rfl : supports' = supports := by simpa [Event.change] using before
        exact .inr ⟨[], author, log, rfl, passes⟩
    · exact .inr ⟨e :: earlier, author, later, rfl, passes⟩

end Runs

/-- In a log, one call finds in the cache what another one wrote there last. -/
def HandsOver (inquiries : Fin n → Inquiry) (author who : Fin n) (supports : ServerSupports)
    (log : List (Event n)) : Prop :=
  ∃ earlier later rest,
    log = earlier ++ .did author ((inquiries author).stored supports) ::
      (later ++ .did who ((inquiries who).looked (some supports)) :: rest) ∧
    ∀ e ∈ later, e.Passes (inquiries who).key

section Drops

variable {inquiries : Fin n → Inquiry} {cache : VersionCache} {now : Nat} {s s' : Overlap n}
  {log before after : List (Event n)} {drop : Event n} {who : Fin n} {supports : ServerSupports}

theorem path_of_run (run : Run (start inquiries cache now) log s) (who : Fin n) :
    (inquiries who).Path (deeds who log) (s.calls who) :=
  Inquiry.path_of_leaves (leaves_deeds run who)

theorem lookup_of_step {q : Inquiry} (step : Step s (.did who (q.looked (some supports))) s') :
    s.cache.lookup s.now q.key q.maxAge = some supports := by
  cases step with
  | operate _ ready answers => exact answers.1.symm

theorem written_after_drop (dropped : Step s drop s') (drops : drop.Drops (inquiries who).key)
    {s'' : Overlap n} (run : Run s' after s'')
    (shown : (inquiries who).looked (some supports) ∈ deeds who after) :
    ∃ earlier author later rest,
      after = earlier ++ .did author ⟨.remember (inquiries who).key supports, ()⟩ ::
        (later ++ .did who ((inquiries who).looked (some supports)) :: rest) ∧
      ∀ e ∈ later, e.Passes (inquiries who).key := by
  obtain ⟨e, mem, deed⟩ := List.mem_filterMap.mp shown
  obtain rfl := deed_eq_some.mp deed
  obtain ⟨first, rest, rfl⟩ := List.append_of_mem mem
  obtain ⟨middle, run, onward⟩ := Run.append.mp run
  cases onward with
  | step step _ =>
    have held := VersionCache.held_of_lookup (lookup_of_step step)
    -- Right after the drop nothing is held, so what is found has been written since.
    rw [held_run run, held_step dropped, Event.change_of_drops drops] at held
    obtain ⟨nothing, -⟩ | ⟨earlier, author, later, rfl, passes⟩ := written_last held
    · contradiction
    · exact ⟨earlier, author, later, rest, by simp, passes⟩

/-- What is stored after a drop was asked for after the drop, unless the reply was on its way. -/
theorem told_or_on_its_way {earlier rest : List (Event n)} {author : Fin n} {key : String}
    (run : Run (start inquiries cache now)
      (before ++ drop :: (earlier ++ .did author ⟨.remember key supports, ()⟩ :: rest)) s)
    {other : String} (drops : drop.Drops other) :
    key = (inquiries author).key ∧ ∃ command response,
      (inquiries author).Tells command response supports ∧
      ((inquiries author).asked command (.ok response) ∈ deeds author earlier ∨
        deeds author before =
          [(inquiries author).looked none, (inquiries author).asked command (.ok response)]) := by
  have path := path_of_run run author
  have own : deeds author (.did author ⟨.remember key supports, ()⟩ :: rest) =
      ⟨.remember key supports, ()⟩ :: deeds author rest :=
    List.filterMap_cons_some (if_pos rfl)
  -- Before the write the author did two things, and the drop may stand on either side of the second.
  rw [deeds_append, deeds_drop drops, deeds_append, own, ← List.append_assoc] at path
  obtain ⟨rfl, command, response, tells, steps⟩ := Inquiry.path_to_store path
  refine ⟨rfl, command, response, tells, ?_⟩
  obtain nothing | ⟨more, last, snoc⟩ := List.eq_nil_or_concat' (deeds author earlier)
  · exact .inr (by rwa [nothing, List.append_nil] at steps)
  · left
    rw [snoc, ← List.append_assoc] at steps
    have split : deeds author before ++ more ++ [last] =
        [(inquiries author).looked none] ++ [(inquiries author).asked command (.ok response)] :=
      steps
    obtain ⟨-, same⟩ := List.append_inj' split rfl
    rw [snoc, List.singleton_inj.mp same]
    exact List.mem_append_right _ (List.mem_singleton_self _)

end Drops

section LateStore

variable {q : Inquiry} {command : Command} {response : Response} {supports : ServerSupports}

theorem step_missed (s : Overlap n) {who : Fin n} (ready : s.calls who = q.call)
    (lookup : s.cache.lookup s.now q.key q.maxAge = none) :
    Step s (.did who (q.looked none))
      { s with calls := Function.update s.calls who (fetching q.server q.timeout) } :=
  @Step.operate n s who (q.looked none) _ _
    (ready.trans (discover_steps q.server q.maxAge q.timeout)) ⟨lookup.symm, rfl⟩

theorem step_shown (s : Overlap n) {who : Fin n} (ready : s.calls who = q.call)
    (lookup : s.cache.lookup s.now q.key q.maxAge = some supports) :
    Step s (.did who (q.looked (some supports)))
      { s with calls := Function.update s.calls who (.done (.ok supports)) } :=
  @Step.operate n s who (q.looked (some supports)) _ _
    (ready.trans (discover_steps q.server q.maxAge q.timeout)) ⟨lookup.symm, rfl⟩

theorem step_asked (s : Overlap n) {who : Fin n} (tells : q.Tells command response supports)
    (ready : s.calls who = fetching q.server q.timeout) :
    Step s (.did who (q.asked command (.ok response)))
      { s with
        calls := Function.update s.calls who
          (.perform (.remember q.key supports) fun _ => .done (.ok supports)) } := by
  unfold fetching at ready
  rw [tells.built] at ready
  have step := @Step.operate n s who (q.asked command (.ok response)) _ _ ready rfl
  dsimp only [Inquiry.asked] at step
  rw [tells.read] at step
  exact step

theorem step_stored (s : Overlap n) {who : Fin n}
    (ready : s.calls who = .perform (.remember q.key supports) fun _ => .done (.ok supports)) :
    Step s (.did who (q.stored supports))
      { s with
        cache := s.cache.store s.now q.key supports
        calls := Function.update s.calls who (.done (.ok supports)) } :=
  @Step.operate n s who (q.stored supports) _ _ ready rfl

def answered (q : Inquiry) (command : Command) (response : Response) : List (Event 2) :=
  [.did 0 (q.looked none), .did 0 (q.asked command (.ok response))]

def storedLate (q : Inquiry) (supports : ServerSupports) : List (Event 2) :=
  [.did 0 (q.stored supports), .did 1 (q.looked (some supports))]

theorem run_stored_late (tells : q.Tells command response supports) (ageless : q.maxAge = none)
    (now : Nat) :
    ∃ s, Run (start (fun _ => q) .empty now)
        (answered q command response ++ .invalidated q.key :: storedLate q supports) s ∧
      s.calls 1 = .done (.ok supports) := by
  have found (cache : VersionCache) :
      (cache.store now q.key supports).lookup now q.key q.maxAge = some supports := by
    rw [ageless, VersionCache.lookup_any_age, VersionCache.held_store, if_pos rfl]
  exact ⟨_, .step (step_missed _ rfl rfl)
    (.step (step_asked _ tells rfl)
      (.step (.invalidate q.key)
        (.step (step_stored _ rfl)
          (.step (step_shown _ rfl (found _)) (.stay _))))), rfl⟩

end LateStore

section Replies

variable {inquiries : Fin n → Inquiry} {cache : VersionCache} {now : Nat} {s : Overlap n}
  {before after : List (Event n)} {drop : Event n} {who : Fin n} {supports : ServerSupports}

/-- A call that starts after its entry was dropped returns what a server told a call with this key
after the drop, unless that reply was on its way at the drop and was stored after it. -/
theorem reply_after_drop
    (run : Run (start inquiries cache now) (before ++ drop :: after) s)
    (drops : drop.Drops (inquiries who).key) (starts : deeds who before = [])
    (ended : s.calls who = .done (.ok supports)) :
    ∃ author command response,
      (inquiries author).key = (inquiries who).key ∧
      (inquiries author).Tells command response supports ∧
      (author = who ∧ deeds who after =
            [(inquiries who).looked none, (inquiries who).asked command (.ok response),
              (inquiries who).stored supports] ∨
        deeds who after = [(inquiries who).looked (some supports)] ∧
          HandsOver inquiries author who supports after) ∧
      ((inquiries author).asked command (.ok response) ∈ deeds author after ∨
        deeds author before =
            [(inquiries author).looked none, (inquiries author).asked command (.ok response)] ∧
          (inquiries author).stored supports ∈ deeds author after) := by
  have path := path_of_run run who
  rw [ended, deeds_append, deeds_drop drops, starts, List.nil_append] at path
  obtain steps | ⟨command, response, tells, steps⟩ := Inquiry.path_to_result path
  case inl =>
    obtain ⟨middle, -, onward⟩ := Run.append.mp run
    cases onward with
    | step dropped onward =>
      obtain ⟨earlier, author, later, rest, rfl, passes⟩ :=
        written_after_drop dropped drops onward (steps ▸ List.mem_singleton_self _)
      obtain ⟨key, command, response, tells, asked⟩ := told_or_on_its_way run drops
      refine ⟨author, command, response, key.symm, tells,
        .inr ⟨steps, earlier, later, rest, by rw [key, Inquiry.stored], passes⟩, ?_⟩
      rw [deeds_append]
      refine asked.imp (List.mem_append_left _) fun told => ⟨told, List.mem_append_right _ ?_⟩
      rw [key]
      exact List.mem_filterMap.mpr ⟨_, List.mem_cons_self, if_pos rfl⟩
  case inr =>
    refine ⟨who, command, response, rfl, tells, .inl ⟨rfl, steps⟩, .inl ?_⟩
    rw [steps]
    exact List.mem_cons_of_mem _ List.mem_cons_self

theorem reply_after_drop_stored_late :
    ∃ (command : Command) (s : Overlap 2),
      Run (start (fun _ => .sample) .empty 0)
        (answered .sample command .listing ++
          .invalidated Inquiry.sample.key :: storedLate .sample .listed) s ∧
      deeds 1 (answered .sample command .listing) = [] ∧
      s.calls 1 = .done (.ok .listed) ∧
      ∃ author, HandsOver (fun _ => .sample) author 1 .listed (storedLate .sample .listed) := by
  obtain ⟨command, tells⟩ := Inquiry.sample_tells
  obtain ⟨s, run, ended⟩ := run_stored_late tells rfl 0
  obtain ⟨author, _, _, _, _, (⟨_, fetched⟩ | ⟨_, handed⟩), _⟩ :=
    reply_after_drop run rfl rfl ended
  · have lengths : 1 = 3 := congrArg List.length fetched
    exact absurd lengths (by decide)
  · exact ⟨command, s, run, rfl, ended, author, handed⟩

/-- A reply from before the drop comes back in a call that starts after it, and nothing is asked
after the drop. -/
theorem dropped_reply_comes_back :
    ∃ (command : Command) (s : Overlap 2),
      Inquiry.sample.Tells command .listing .listed ∧
      Run (start (fun _ => .sample) .empty 0)
        (answered .sample command .listing ++
          .invalidated Inquiry.sample.key :: storedLate .sample .listed) s ∧
      deeds 1 (answered .sample command .listing) = [] ∧
      s.calls 1 = .done (.ok .listed) ∧
      ∀ who, (deeds who (storedLate .sample .listed)).filterMap Exchange.sent? = [] := by
  obtain ⟨command, tells⟩ := Inquiry.sample_tells
  obtain ⟨s, run, ended⟩ := run_stored_late tells rfl 0
  exact ⟨command, s, tells, run, rfl, ended, Fin.forall_fin_two.mpr ⟨rfl, rfl⟩⟩

end Replies

end Overlap

end MatrixSession
