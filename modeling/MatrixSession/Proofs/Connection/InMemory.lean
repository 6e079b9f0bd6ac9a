import MatrixSession.Proofs.Transcript

/-!
Programs that keep the tokens and the discovery results in memory. The world around such a program
answers everything else, in any way and with any clock, and nobody else reaches the memory.
-/
namespace MatrixSession

structure InMemory (σ : Type) where
  tokens : TokenPair
  cache : VersionCache
  around : σ

namespace InMemory

variable {σ : Type} (now : σ → Nat) (outside : (op : Operation) → σ → op.Reply × σ)

def forward (m : InMemory σ) (op : Operation) : op.Reply × InMemory σ :=
  ((outside op m.around).1, { m with around := (outside op m.around).2 })

def answer : (op : Operation) → InMemory σ → op.Reply × InMemory σ
  | .readToken kind, m => (m.tokens.get kind, m)
  | .writeToken kind token, m => ((), { m with tokens := m.tokens.put kind (some token) })
  | .consult key maxAge, m => (m.cache.lookup (now m.around) key maxAge, m)
  | .remember key supports, m =>
    ((), { m with cache := m.cache.store (now m.around) key supports })
  | .send command options, m => m.forward outside (.send command options)
  | .acquire lock timeout, m => m.forward outside (.acquire lock timeout)
  | .release lock, m => m.forward outside (.release lock)

end InMemory

def replying (reply : Except Failure Response) : (op : Operation) → Unit → op.Reply × Unit
  | .readToken _, _ => (none, ())
  | .send .., _ => (reply, ())
  | .acquire .., _ => (false, ())
  | .consult .., _ => (none, ())
  | .writeToken .., _ | .release _, _ | .remember .., _ => ((), ())

end MatrixSession
