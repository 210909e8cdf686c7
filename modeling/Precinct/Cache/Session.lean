import Precinct.Cache.Wait
import Precinct.Probe.CrossCheck
import Precinct.Store.Session

/-!
# Sessions with a cache

* `CacheOp`            one operation on a cache, as a value; a wait tells how many milliseconds it
                       lasts at most;
* `CacheReply`         what it answers;
* `CacheOp.perform`    the operation done to a cache and a shelf of ledgers;
* `CacheOp.hasToWait`  whether time passes meanwhile, which other caches then use as well.

The background work proceeds in waits and nowhere else, so an answer depends on the operations
alone.
-/

namespace Precinct

/-- one operation on a cache -/
inductive CacheOp where
  /-- an operation of every store -/
  | ofStore (op : StoreOp)
  /-- an operation on the wrapped store, behind the cache -/
  | behind (op : StoreOp)
  | regionsAt (p : Block)
  /-- show the regions that hold a block to a visitor that stops at a limit -/
  | visit (p : Block) (limit : Option Nat)
  | isLoaded (columns : List Column)
  | renew
  | settings
  | drain (ms : Nat)
  | dropAllAndWait (ms : Nat)
  | stats
  /-- how many spatial queries reached the wrapped store -/
  | calls
  | crossCheck (points : List Block)
  /-- hold the next query for intersecting regions inside the store -/
  | closeGate
  /-- wait for such a query to come to where it is held -/
  | awaitGate (ms : Nat)
  | openGate
  /-- let the next query for intersecting regions fail -/
  | failNext
  /-- wait for a count to have a value -/
  | awaitCount (counter : Counter) (value ms : Nat)

/-- what an operation on a cache answers -/
inductive CacheReply where
  | ofStore (reply : StoreReply)
  /-- regions in layer order -/
  | layered (regions : List Region)
  /-- what a visitor has seen, and whether a loaded column answered -/
  | visited (s : Sighting) (loaded : Bool)
  | flags (bs : List Bool)
  | settings (s : Settings)
  | stats (s : Stats)
  | calls (containing intersecting : Nat)
  | checked (check : CrossCheck)

namespace CacheReply

def flag (b : Bool) : CacheReply := ofStore (.flag b)

/-- the reply of an operation without an answer -/
def done : CacheReply := ofStore .done

/-- the reply of a cross-check -/
def ofCheck : Except Fault CrossCheck → CacheReply
  | .ok check => checked check
  | .error fault => ofStore (.broken fault)

end CacheReply

namespace CacheOp
variable {σ : Type} [RegionStore σ]

def perform (op : CacheOp) (c : Cache σ) (shelf : Shelf) : CacheReply × Cache σ × Shelf :=
  match op with
  | ofStore op => let (reply, c, shelf) := op.performOn c shelf; (.ofStore reply, c, shelf)
  | behind op => let (reply, c, shelf) := op.performBehind c shelf; (.ofStore reply, c, shelf)
  | regionsAt p => let (regions, c) := c.regionsAt p; (.layered regions, c, shelf)
  | visit p limit =>
    let (s, loaded, c) := c.visitContaining p limit
    (.visited s loaded, c, shelf)
  | isLoaded columns => (.flags (columns.map c.isLoaded), c, shelf)
  | renew => let (outcome, c) := c.renew; (.ofStore (StoreOp.replyOf outcome), c, shelf)
  | settings => (.settings c.settings, c, shelf)
  | drain ms => let (b, c) := c.drain ms; (.flag b, c, shelf)
  | dropAllAndWait ms => let (b, c) := c.dropAllAndWait ms; (.flag b, c, shelf)
  | stats => (.stats c.counters.snapshot, c, shelf)
  | calls => (.calls c.store.containingCalls c.store.intersectingCalls, c, shelf)
  | crossCheck points => let (outcome, c) := c.crossCheck points; (.ofCheck outcome, c, shelf)
  | closeGate => (.done, { c with store := c.store.closeGate }, shelf)
  | awaitGate ms => let (b, c) := c.awaitGate ms; (.flag b, c, shelf)
  | openGate => let (b, store) := c.store.openGate; (.flag b, { c with store }, shelf)
  | failNext => (.done, { c with store := c.store.failNext }, shelf)
  | awaitCount counter value ms => let (b, c) := c.awaitCount counter value ms; (.flag b, c, shelf)

/-- whether an operation has to wait, so that time passes -/
def hasToWait (op : CacheOp) (c : Cache σ) : Bool :=
  match op with
  | drain ms => 0 < ms && c.isLive c.current
  | dropAllAndWait ms => 0 < ms && (c.current :: c.dismissed).any c.isLive
  | awaitGate ms => c.store.gate.isSome && c.mustWait ms (·.store.isGateReached)
  | awaitCount counter value ms => c.mustWait ms fun c => c.counters.get counter == value
  | _ => false

end CacheOp
end Precinct
