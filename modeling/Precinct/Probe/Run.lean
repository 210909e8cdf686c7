import Precinct.Data.Settings
import Precinct.Data.World
import Precinct.Cache.Wait
import Precinct.Probe.CrossCheck
import Precinct.Probe.Layout
import Precinct.Store.Choice

/-!
# A probe

* `Probe.Plan`    how much is laid out and asked;
* `Probe.warmUp`  regions and columns put into a cache, and its background work awaited;
* `Probe.setUp`   a cache over a store, with the layout of a plan and the columns around the origin
                  warmed;
* `Probe.runOver` queries inside these columns are cross-checked;
* `Probe.run`     the same over a fresh store of the kind that the plan names;
* `Probe.Report`  what came of it.

Layout and queries come from generators of their own with fixed seeds, so that every run of one plan
asks the same.
-/

namespace Precinct.Probe
open Data (Value Structured)

/-- how much is laid out and asked -/
structure Plan where
  kind : StoreKind := .table
  regions : Nat := 1000
  queries : Nat := 100000
  /-- how many columns around the origin are warmed in every direction -/
  radius : Int32 := 16
  deriving DecidableEq, Repr

/-- the seed of the layout -/
def layoutSeed : Generator := ⟨0x5eed⟩

/-- the seed of the queries -/
def querySeed : Generator := ⟨0xfeed⟩

/-- what came of a probe -/
structure Report where
  /-- whether all columns were loaded before the first query -/
  warmed : Bool
  check : CrossCheck
  stats : Stats
  deriving DecidableEq, Repr

/-- how long the columns may take to load, in milliseconds -/
def warmUpMs : Nat := 60000

/-- put regions into a cache, have columns surveyed, and await that; whether it was done in time -/
def warmUp {σ : Type} [RegionStore σ] (c : Cache σ) (regions : List Region)
    (columns : List Column) : Except Fault (Bool × Cache σ) :=
  match c.addAll regions with
  | (.error fault, _) => .error fault
  | (.ok (), c) =>
    match c.warmAll columns with
    | (.error fault, _) => .error fault
    | (.ok (), c) => .ok (c.drain warmUpMs)

/-- a cache over a store, ready for the queries of a plan; whether it was in time -/
def setUp {σ : Type} [RegionStore σ] (store : σ) (plan : Plan) (settings : Settings) :
    Except Failure (Bool × Cache σ) := do
  let c ← (Cache.make store settings).mapError .settings
  let (regions, _) ← layout plan.regions plan.radius layoutSeed
  let columns ← columnSquare plan.radius
  (warmUp c regions columns).mapError .broken

/-- carry a plan out over a store, with the settings of a cache -/
def runOver {σ : Type} [RegionStore σ] (store : σ) (plan : Plan) (settings : Settings) :
    Except Failure Report := do
  let (warmed, c) ← setUp store plan settings
  let (points, _) ← queryPoints plan.queries plan.radius querySeed
  let (outcome, c) := c.crossCheck points
  let check ← outcome.mapError .broken
  return ⟨warmed, check, c.counters.snapshot⟩

/-- carry a plan out over a fresh store of its kind -/
def run (plan : Plan) (settings : Settings) : Except Failure Report :=
  runOver (Choice.ofRegions plan.kind []) plan settings

/-! ## reports -/

/-- a cross-check as a value, its fields by name -/
def checkValue (check : CrossCheck) : Value :=
  .record [("matches_found", .whole check.matchesFound.toNat), ("mismatches", .whole check.mismatches),
    ("queries", .whole check.queries), ("samples", .list (check.samples.map Structured.toRecord))]

/-- counts as a value, their fields by name -/
def statsValue (s : Stats) : Value :=
  .record ((Structured.members s).mergeSort fun a b => a.1 ≤ b.1)

def Report.toValue (r : Report) : Value :=
  .record [("cross_check", checkValue r.check), ("stats", statsValue r.stats)]

end Precinct.Probe
