import MatrixSession.Http.Exchange
import MatrixSession.Proofs.Http.Bodies

/-!
What becomes of a command that is sent, by how far the response has come when its connection ends.
-/
namespace MatrixSession.Http

def Headed (method : String) (bytes : List UInt8) (status : UInt16) : Prop :=
  ∃ heads framing rest, bytes = heads ++ rest ∧ Heads method status framing heads

/-- All of a response has come. A body that is not framed ends when its connection is closed. -/
def Whole (method : String) (bytes : List UInt8) (ending : Option Ending) (status : UInt16)
    (body : List UInt8) : Prop :=
  ∃ heads framing text more, bytes = heads ++ (text ++ more) ∧ Heads method status framing heads ∧
    framing.Carries text body ∧ (framing = .untilClose → more = [] ∧ ending = some .closed)

section Deliveries

variable {method : String} {bytes : List UInt8} {status : UInt16}

theorem headed_iff : Headed method bytes status ↔
    ∃ framing rest, readHead method [] [] bytes = .done (status, framing) rest := by
  constructor
  · rintro ⟨heads, framing, rest, same, written⟩
    exact ⟨framing, rest, readHead_done_iff.mpr ⟨heads, same, written⟩⟩
  · rintro ⟨framing, rest, read⟩
    obtain ⟨heads, same, written⟩ := readHead_done_iff.mp read
    exact ⟨heads, framing, rest, same, written⟩

theorem whole_or_lost {ending : Option Ending} {body : List UInt8} (timeout : Option Nat) :
    Whole method bytes (ending.or (timeout.map fun _ => .lost)) status body ↔
      Whole method bytes ending status body := by
  have closed : ending.or (timeout.map fun _ => Ending.lost) = some .closed ↔
      ending = some .closed := by
    cases ending <;> cases timeout <;> simp
  unfold Whole
  rw [closed]

theorem ofBytes?_headless (headless : ∀ status, ¬ Headed method bytes status) (last : Ending) :
    Delivery.ofBytes? method bytes (some last) = some (.failed .http) := by
  unfold Delivery.ofBytes?
  cases read : readHead method [] [] bytes with
  | unfinished | malformed => rfl
  | done head rest => exact absurd (headed_iff.mpr ⟨head.2, rest, read⟩) (headless head.1)

theorem ofBytes?_whole {ending : Option Ending} {body : List UInt8}
    (whole : Whole method bytes ending status body) :
    Delivery.ofBytes? method bytes ending = some (.complete ⟨status, body⟩) := by
  obtain ⟨heads, framing, text, more, rfl, written, carries, closed⟩ := whole
  unfold Delivery.ofBytes?
  rw [readHead_heads written]
  by_cases framed : framing = .untilClose
  · obtain ⟨rfl, rfl⟩ := closed framed
    subst framed
    cases carries
    simp [Framing.read]
  · have read : framing.read (text ++ more) = .done body more :=
      read_done_iff.mpr ⟨framed, text, rfl, carries⟩
    simp only [read]

theorem ofBytes?_broken (headed : Headed method bytes status) {last : Ending}
    (incomplete : ∀ status body, ¬ Whole method bytes (some last) status body) :
    Delivery.ofBytes? method bytes (some last) = some (.broken status) := by
  obtain ⟨heads, framing, rest, rfl, written⟩ := headed
  unfold Delivery.ofBytes?
  rw [readHead_heads written]
  dsimp only
  cases read : framing.read rest with
  | done body more =>
    obtain ⟨framed, text, rfl, carries⟩ := read_done_iff.mp read
    refine absurd ?_ (incomplete status body)
    exact ⟨heads, framing, text, more, rfl, written, carries, fun same => absurd same framed⟩
  | malformed => rfl
  | unfinished =>
    have open_end : ¬ (framing = .untilClose ∧ last = .closed) := by
      rintro ⟨rfl, rfl⟩
      refine incomplete status rest ⟨heads, .untilClose, rest, [], ?_, written, .untilClose rest, ?_⟩
      · rw [List.append_nil]
      · exact fun _ => ⟨rfl, rfl⟩
    exact congrArg some (if_neg open_end)

end Deliveries

section Sending

variable {command : Command} {options : SendOptions}

theorem transmit_answer {request : Request} (legal : Request.ofCommand? command = some request)
    (address : isAddress command.url = true) (bytes : List UInt8) (ending : Option Ending) :
    transmit (.answer bytes ending) command options =
      (Delivery.ofBytes? command.method bytes
        (ending.or (options.timeout.map fun _ => .lost))).map
          (·.result options command.path) := by
  have method : request.method = command.method := by
    unfold Request.ofCommand? at legal
    split at legal
    · obtain rfl := Option.some.inj legal
      rfl
    · contradiction
  rw [transmit, legal]
  dsimp only
  rw [if_pos address, Conduct.delivery?, method]

theorem accept_eq (path : String) (status : UInt16) (body : List UInt8) :
    options.accept path ⟨status, body⟩ =
      if options.statusErrors = true ∧ ¬ (200 ≤ status ∧ status < 300) then
        .error (.httpStatus status path (Utf8.lossy body))
      else .ok ⟨status, body⟩ := by
  simp only [SendOptions.accept, Response.isSuccess, Response.text, Bool.and_eq_true,
    Bool.not_eq_true', Bool.and_eq_false_iff, decide_eq_false_iff_not, Decidable.not_and_iff_or_not]

/-- A response that has come as a whole is handed on as it is, or refused for its status. Before its
    head has come the failure is one of the transport; after that, and before all of the body has
    come, it passes for one of the protocol. -/
theorem transmit_by_phase (command : Command) (options : SendOptions) :
    (∀ conduct, Request.ofCommand? command = none ∨ isAddress command.url = false →
      transmit conduct command options = some (.error (.transport .http))) ∧
    transmit .refuse command options = some (.error (.transport .http)) ∧
    ∀ bytes ending, (Request.ofCommand? command).isSome = true → isAddress command.url = true →
      (∀ status body, Whole command.method bytes ending status body →
        transmit (.answer bytes ending) command options =
          some (if options.statusErrors = true ∧ ¬ (200 ≤ status ∧ status < 300) then
            .error (.httpStatus status command.path (Utf8.lossy body))
          else .ok ⟨status, body⟩)) ∧
      (ending.isSome = true ∨ options.timeout.isSome = true →
        ((∀ status, ¬ Headed command.method bytes status) →
          transmit (.answer bytes ending) command options = some (.error (.transport .http))) ∧
        ∀ status, Headed command.method bytes status →
          (∀ status body, ¬ Whole command.method bytes ending status body) →
            transmit (.answer bytes ending) command options =
              some (.error (.protocol .unreadableBody))) := by
  refine ⟨?_, ?_, ?_⟩
  · rintro conduct (illegal | elsewhere)
    · rw [transmit, illegal]
    · rw [transmit]
      cases Request.ofCommand? command with
      | none => rfl
      | some request => exact if_neg (by simp [elsewhere])
  · rw [transmit]
    cases Request.ofCommand? command with
    | none => rfl
    | some request =>
      dsimp only
      split <;> rfl
  · intro bytes ending legal address
    obtain ⟨request, legal⟩ := Option.isSome_iff_exists.mp legal
    rw [transmit_answer legal address]
    refine ⟨fun status body whole => ?_, fun ends => ?_⟩
    · rw [ofBytes?_whole ((whole_or_lost options.timeout).mpr whole)]
      exact congrArg some (accept_eq command.path status body)
    · obtain ⟨last, ended⟩ : ∃ last, ending.or (options.timeout.map fun _ => .lost) = some last := by
        refine Option.isSome_iff_exists.mp ?_
        rwa [Option.isSome_or, Option.isSome_map, Bool.or_eq_true]
      refine ⟨fun headless => ?_, fun status headed incomplete => ?_⟩
      · rw [ended, ofBytes?_headless headless]
        rfl
      · have incomplete status body : ¬ Whole command.method bytes (some last) status body := by
          rw [← ended, whole_or_lost]
          exact incomplete status body
        rw [ended, ofBytes?_broken headed incomplete]
        rfl

def versionsRequest : Command :=
  ⟨"GET", ⟨"http", some ⟨"", "", some (.domain "hs.example"), none⟩, false,
    .segments ["_matrix", "client", "versions"], none, none⟩, none, .empty, false⟩

theorem whole_reply_is_handed_on :
    let reply := Utf8.encode "HTTP/1.1 200 OK\x0d\nContent-Length: 2\x0d\n\x0d\n\x7b\x7d"
    Whole "GET" reply none 200 [0x7B, 0x7D] ∧
      transmit (.answer reply none) versionsRequest ⟨true, none⟩ = some (.ok ⟨200, [0x7B, 0x7D]⟩) := by
  intro reply
  have read : readHead "GET" [] [] reply = .done (200, .counted 2) [0x7B, 0x7D] := by
    decide +kernel
  obtain ⟨heads, same, written⟩ := readHead_done_iff.mp read
  have whole : Whole "GET" reply none 200 [0x7B, 0x7D] :=
    ⟨heads, .counted 2, [0x7B, 0x7D], [], same, written, .counted [0x7B, 0x7D], nofun⟩
  refine ⟨whole, ?_⟩
  exact ((transmit_by_phase versionsRequest ⟨true, none⟩).2.2 reply none (by decide +kernel)
    (by decide +kernel)).1 200 [0x7B, 0x7D] whole

/-- A connection that is closed within the body is a failure of the network, but is reported as one of
    the protocol. -/
theorem cut_body_passes_for_protocol :
    let reply := Utf8.encode "HTTP/1.1 200 OK\x0d\nContent-Length: 2\x0d\n\x0d\n\x7b"
    (∀ status body, ¬ Whole "GET" reply (some .closed) status body) ∧
      transmit (.answer reply (some .closed)) versionsRequest ⟨true, none⟩ =
        some (.error (.protocol .unreadableBody)) := by
  intro reply
  have broken : Delivery.ofBytes? "GET" reply (some .closed) = some (.broken 200) := by
    decide +kernel
  refine ⟨fun status body whole => ?_, by decide +kernel⟩
  exact nomatch broken.symm.trans (ofBytes?_whole whole)

end Sending

end MatrixSession.Http
