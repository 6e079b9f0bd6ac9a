import MatrixSession.Client.Connect
import MatrixSession.Scenario.World

/-!
Steps on the cache of discovery results, and runs of such steps in a scripted world.
-/
namespace MatrixSession.Scenario

inductive CacheStep where
  | query (server : Url) (maxAge timeout : Option Nat)
  | get (key : String) (maxAge : Option Nat)
  | set (key : String) (supports : ServerSupports)
  | invalidate (key : String)
  | clear

namespace World

def cacheStep (w : World) : CacheStep → Except Failure (Option ServerSupports) × World
  | .query server maxAge timeout =>
    let (result, w) := w.perform (discover server maxAge timeout)
    (result.map some, w)
  | .get key maxAge => (.ok (w.cache.lookup 0 key maxAge), w)
  | .set key supports => (.ok none, { w with cache := w.cache.store 0 key supports })
  | .invalidate key => (.ok none, { w with cache := w.cache.invalidate key })
  | .clear => (.ok none, { w with cache := .empty })

def cacheRun : List CacheStep → World →
    List (Except Failure (Option ServerSupports)) × World
  | [], w => ([], w)
  | step :: steps, w =>
    let (result, w) := w.cacheStep step
    let (results, w) := cacheRun steps w
    (result :: results, w)

end World

end MatrixSession.Scenario
