import Precinct.Fault

/-!
# Counts of a cache

* `Counters`        what a cache counts while it runs;
* `Stats`           the counts at one moment, as 64-bit numbers;
* `Stats.hitRatio`  the share of queries that did not touch the store, zero when there were none.
-/

namespace Precinct

/-- what a cache counts -/
structure Counters where
  hotColumnHits : Nat := 0
  columnHits : Nat := 0
  storeFallbacks : Nat := 0
  columnsLoaded : Nat := 0
  rebuilds : Nat := 0
  tasksCancelled : Nat := 0
  deriving DecidableEq, Inhabited, Repr

/-- the counts at one moment -/
structure Stats where
  /-- queries answered from the column asked for last -/
  hotColumnHits : UInt64 := 0
  /-- queries answered from another loaded column -/
  columnHits : UInt64 := 0
  /-- queries handed to the store -/
  storeFallbacks : UInt64 := 0
  /-- columns loaded in the background -/
  columnsLoaded : UInt64 := 0
  /-- renewals of the whole cache -/
  rebuilds : UInt64 := 0
  /-- background jobs that stopped early -/
  tasksCancelled : UInt64 := 0
  deriving DecidableEq, Inhabited, Repr

def Counters.snapshot (c : Counters) : Stats where
  hotColumnHits := c.hotColumnHits.toUInt64
  columnHits := c.columnHits.toUInt64
  storeFallbacks := c.storeFallbacks.toUInt64
  columnsLoaded := c.columnsLoaded.toUInt64
  rebuilds := c.rebuilds.toUInt64
  tasksCancelled := c.tasksCancelled.toUInt64

/-- one of the six counts -/
inductive Counter where
  | hotColumnHits
  | columnHits
  | storeFallbacks
  | columnsLoaded
  | rebuilds
  | tasksCancelled
  deriving DecidableEq, Repr

def Counters.get (c : Counters) : Counter → Nat
  | .hotColumnHits => c.hotColumnHits
  | .columnHits => c.columnHits
  | .storeFallbacks => c.storeFallbacks
  | .columnsLoaded => c.columnsLoaded
  | .rebuilds => c.rebuilds
  | .tasksCancelled => c.tasksCancelled

/-- a 64-bit number and some more, if that is one again -/
def addExact (a : UInt64) (n : Nat) : Except Fault UInt64 :=
  if a.toNat + n < UInt64.size then .ok (a + n.toUInt64) else .error .overflow

/-- the share of queries that did not touch the store -/
def Stats.hitRatio (s : Stats) : Except Fault Float := do
  let hits ← addExact s.hotColumnHits s.columnHits.toNat
  let total ← addExact hits s.storeFallbacks.toNat
  return if total = 0 then 0 else hits.toFloat / total.toFloat

end Precinct
