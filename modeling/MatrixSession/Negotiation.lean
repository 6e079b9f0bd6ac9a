import MatrixSession.Failure

/-!
Choosing the version to speak: the highest one that the client implements and the server
advertises. Server texts that are no version play no part, but a failure shows them with the rest.
-/
namespace MatrixSession.Negotiation

/-- The highest of the versions; among equal ones the last. -/
def highest? : List SupportedVersion → Option SupportedVersion
  | [] => none
  | s :: rest =>
    match highest? rest with
    | none => some s
    | some best => if s.version ≤ best.version then some best else some s

def advertised (offered : List String) : List ApiVersion :=
  offered.filterMap ApiVersion.ofAdvertised?

def choose? (client : List SupportedVersion) (offered : List String) : Option SupportedVersion :=
  highest? (client.filter fun s => s.version ∈ advertised offered)

def settle (serverUrl : String) (client : List SupportedVersion) (offered : List String) :
    Except Failure SupportedVersion :=
  match choose? client offered with
  | some best => .ok best
  | none => .error (.noCommonVersion serverUrl offered)

end MatrixSession.Negotiation
