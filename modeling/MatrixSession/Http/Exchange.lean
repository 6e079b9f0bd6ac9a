import MatrixSession.Http.Body

/-!
Sending a command over a connection, against any way in which the server may act. A response counts
only if its head has come, and its body only if all of it has. Redirects are not followed, and bodies
are taken as they come.
-/
namespace MatrixSession.Http

inductive Ending where
  | closed
  | lost
  deriving DecidableEq, Repr

/-- What the bytes of a connection bring; `none` as long as that depends on what comes next. -/
def Delivery.ofBytes? (method : String) (bytes : List UInt8) (ending : Option Ending) :
    Option Delivery :=
  match readHead method [] [] bytes with
  | .unfinished => ending.map fun _ => .failed .http
  | .malformed => some (.failed .http)
  | .done (status, framing) rest =>
    match framing.read rest with
    | .done body _ => some (.complete ⟨status, body⟩)
    | .malformed => some (.broken status)
    | .unfinished => ending.map fun ending =>
      if framing = .untilClose ∧ ending = .closed then .complete ⟨status, rest⟩ else .broken status

/-- What a server does when it is asked: it lets nobody connect, or it sends bytes. Without an ending
    it then leaves the connection open and keeps silent. What would come too late is left out. -/
inductive Conduct where
  | refuse
  | answer (bytes : List UInt8) (ending : Option Ending)

instance : Inhabited Conduct := ⟨.refuse⟩

def Conduct.delivery? (method : String) (timeout : Option Nat) : Conduct → Option Delivery
  | refuse => some (.failed .http)
  | answer bytes ending =>
    Delivery.ofBytes? method bytes (ending.or (timeout.map fun _ => .lost))

def isAddress (url : Url) : Bool :=
  (url.scheme == "http" || url.scheme == "https") && url.host?.isSome

/-- Sends a command; `none` if the sender waits for ever. -/
def transmit (conduct : Conduct) (command : Command) (options : SendOptions) :
    Option (Except Failure Response) :=
  match Request.ofCommand? command with
  | none => some (.error (.transport .http))
  | some request =>
    if isAddress command.url then
      (conduct.delivery? request.method options.timeout).map (·.result options command.path)
    else some (.error (.transport .http))

end MatrixSession.Http
