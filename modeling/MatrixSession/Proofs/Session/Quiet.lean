import MatrixSession.Proofs.Transcript
import MatrixSession.Scenario.World

/-!
A quiet world: its script leaves the stored tokens alone, so that nobody but the client writes them.
What the client has done then tells what is stored, and who holds which lock.
-/
namespace MatrixSession

namespace LockTable

variable {t : LockTable} {name : String} {who : Nat}

end LockTable

namespace Scenario

def Change.KeepsTokens (change : Change) : Prop := change.access = .none ∧ change.refresh = .none

/-- No change in the script replaces a stored token. The token that the server takes as valid may
    change. -/
structure World.Quiet (w : World) : Prop where
  versions : ∀ reply ∈ w.replies.versions, reply.change.KeepsTokens
  refresh : ∀ reply ∈ w.replies.refresh, reply.change.KeepsTokens
  other : ∀ reply ∈ w.replies.other, reply.change.KeepsTokens
  lockTurns : ∀ turn ∈ w.lockTurns, turn.change.KeepsTokens

namespace World

variable {w : World}

end World

end Scenario

end MatrixSession
