import Precinct.Cache.Query
import Precinct.Pool.Clock

/-!
# Waits on a cache

The background work of a cache proceeds only while somebody waits: an operation that follows another
one at once finds the workers where they were.

* `Cache.elapse`       some time passes: workers that waited for long go;
* `Cache.wait`         wait until something is so of the cache, for some milliseconds at most;
* `Cache.drain`        let scheduled work finish: a fresh pool takes new jobs, the old one is closed
                       and its workers go;
* `Cache.dropAllAndWait`  forget every column and let what was running stop;
* `Cache.awaitGate`    wait until a query comes to the gate of the store;
* `Cache.awaitCount`   wait until a count has a value.

What is so already is not waited for.  Work takes no time, only waiting does: what no gate holds up
is done at once, and what is held at a gate outlives every wait.  So a wait either succeeds at once
or lasts to its end.
-/

namespace Precinct
namespace Cache
variable {σ : Type}

/-- whether a wait until something is so takes time -/
def mustWait (c : Cache σ) (ms : Nat) (holds : Cache σ → Bool) : Bool := 0 < ms && !holds c

def elapse (c : Cache σ) (ms : Nat) : Cache σ := { c with pools := c.pools.map (·.elapse ms) }

def takeDismissed (c : Cache σ) : List Nat × Cache σ := (c.dismissed, { c with dismissed := [] })

/-- put pools back on the list of dismissed pools, those that have a live worker -/
def giveBack (c : Cache σ) (pools : List Nat) : Cache σ :=
  { c with dismissed := c.dismissed ++ pools.filter c.isLive }

variable [RegionStore σ]

/-- wait until something is so that time alone does not bring about; whether it is so -/
def wait (c : Cache σ) (ms : Nat) (holds : Cache σ → Bool) : Bool × Cache σ :=
  if c.mustWait ms holds then
    let c := c.settle
    if holds c then (true, c.elapse 0) else (false, c.elapse ms)
  else (holds c, c)

/-- let the work scheduled so far finish; whether it did -/
def drain (c : Cache σ) (ms : Nat) : Bool × Cache σ :=
  let (previous, c) := c.swapPool
  (c.closePool previous).wait ms fun c => !c.isLive previous

/-- forget every column and let the surveys of dismissed pools stop; whether they did -/
def dropAllAndWait (c : Cache σ) (ms : Nat) : Bool × Cache σ :=
  let (pools, c) := c.turn.2.takeDismissed
  match c.wait ms fun c => !pools.any c.isLive with
  | (true, c) => (true, c)
  | (false, c) => (false, c.giveBack pools)

/-- wait until a query has come to the latest gate; whether one has.  Without a gate none will -/
def awaitGate (c : Cache σ) (ms : Nat) : Bool × Cache σ :=
  if c.store.gate.isNone then (false, c) else c.wait ms (·.store.isGateReached)

/-- wait until a count has a value; whether it has -/
def awaitCount (c : Cache σ) (counter : Counter) (value ms : Nat) : Bool × Cache σ :=
  c.wait ms fun c => c.counters.get counter == value

end Cache
end Precinct
