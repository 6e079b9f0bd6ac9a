import MatrixSession.Proofs.Execution.Protocol
import MatrixSession.Proofs.Session.Errand
import MatrixSession.Proofs.Session.Quiet

/-!
What a session leaves behind. Every errand of a client, however it ends, leaves the stored tokens as
they were unless its refresh request brought new ones, and it never keeps the lock.
-/
namespace MatrixSession

namespace Client

section Effects

variable (c : Client) (command : Command) (a : Course)

end Effects

end Client

namespace Scenario

section Quiet

variable {w w' : World} {who : Nat} {exchanges : List Exchange}

end Quiet

section Sessions

variable (c : Client)

end Sessions

/-- A world in which the first access token is no longer valid, and can be renewed once. -/
def World.expired : World where
  link := .direct
  tokens := ⟨some "a1", some "r1"⟩
  valid := some "a2"
  replies := ⟨[], [.plain 200 "\x7b\x22access_token\x22:\x22a2\x22\x7d"],
    [.plain 200 "\x7b\x22user_id\x22:\x22@me:server\x22\x7d"]⟩
  lockTurns := []
  locks := .empty
  cache := .empty
  events := []

end Scenario

end MatrixSession
