import Precinct.Cache.Basic

/-!
# The background work of a cache

* `Cache.surveyStep?`  one step of a survey that a worker runs;
* `Cache.step?`        one step of a worker: a move of its own, or a step of the survey it runs;
* `Cache.settle`       every worker goes on until none can, except by waiting for long.

A survey asks before every column whether it was cancelled, looks the column's sheet up in its own
epoch, and leaves alone a sheet that is loaded.  Between two of its steps anything may happen to the
cache: the sheet it has in hand may have left the map by the time the store answers.  It is
published all the same, for nobody reads it then.
-/

namespace Precinct

/-- what becomes of a survey in one step -/
inductive SurveyResult where
  | goesOn (s : Survey)
  | ends
  /-- the store gave up the query: the survey is lost -/
  | breaksOff
  deriving DecidableEq

/-- what a worker can do next -/
inductive WorkerStep where
  /-- a move of its own -/
  | move (m : Move)
  /-- a step of the survey it runs -/
  | survey
  deriving DecidableEq, Repr

namespace Cache
variable {σ : Type}

def countLoaded (c : Cache σ) : Cache σ :=
  { c with counters := { c.counters with columnsLoaded := c.counters.columnsLoaded + 1 } }

def countCancelled (c : Cache σ) : Cache σ :=
  { c with counters := { c.counters with tasksCancelled := c.counters.tasksCancelled + 1 } }

/-- the sheet of a column for a survey: none if the epoch has passed or the column was forgotten -/
def sheetFor? (c : Cache σ) (s : Survey) (column : Column) : Option Nat :=
  if c.epoch = s.epoch then c.sheetOf? column else none

variable [RegionStore σ]

/-- one step of a survey run by a worker of a pool; none while a gate holds it -/
def surveyStep? (c : Cache σ) (k number : Nat) (s : Survey) : Option (SurveyResult × Cache σ) :=
  match s.columns with
  | [] => some (.ends, c)
  | column :: _ =>
    match s.phase with
    | .checking =>
      if (c.pool k).cancelled then some (.ends, c.countCancelled)
      else some (.goesOn { s with phase := .seeking }, c)
    | .seeking =>
      match c.sheetFor? s column with
      | none => some (.goesOn s.next, c)
      | some i => some (.goesOn { s with phase := .examining i }, c)
    | .examining i =>
      if (c.sheet i).isLoaded then some (.goesOn s.next, c)
      else
        some (.goesOn { s with phase := .querying i },
          { c with store := c.store.enter (.worker k number) })
    | .querying i =>
      if c.store.holds (.worker k number) then none
      else
        match c.store.collect (Region.column column) with
        | (.error _, store) => some (.breaksOff, { c with store })
        | (.ok regions, store) =>
          some (.goesOn { s with phase := .publishing i (Region.inLayers regions) },
            { c with store })
    | .publishing i regions =>
      let (first, sheet) := (c.sheet i).publish regions
      let c := { c with sheets := c.sheets.insert i sheet }
      some (.goesOn s.next, if first then c.countLoaded else c)

/-- one step of a worker of a pool, if it can be made -/
def step? (c : Cache σ) (k number : Nat) : WorkerStep → Option (Cache σ)
  | .move m => ((c.pool k).step? number m).map (c.setPool k)
  | .survey =>
    match ((c.pool k).worker? number).map Worker.phase with
    | some (.running s) =>
      (c.surveyStep? k number s).map fun
        | (.goesOn s', c) => c.setPool k ((c.pool k).proceed number s')
        | (.ends, c) => c.setPool k ((c.pool k).finish number)
        | (.breaksOff, c) => c.setPool k ((c.pool k).finish number)
    | _ => none

/-! ## without anything between -/

/-- the next step of a worker that does not wait for time to pass -/
def nextStep (p : Pool Survey) (w : Worker Survey) : Option WorkerStep :=
  match w.phase with
  | .running _ => some .survey
  | _ => (p.nextMove w).map .move

/-- the next step of the first worker of a pool that can make one -/
def advancePool (c : Cache σ) (k : Nat) : Option (Cache σ) :=
  (c.pool k).workers.findSome? fun w => (nextStep (c.pool k) w).bind (c.step? k w.number)

/-- the next step of the first worker that can make one, the pools taken in order -/
def advance (c : Cache σ) : Option (Cache σ) := (List.range c.pools.size).findSome? c.advancePool

/-- a number of steps, as far as there are any -/
def run : Nat → Cache σ → Cache σ
  | 0, c => c
  | n + 1, c =>
    match c.advance with
    | some c' => run n c'
    | none => c

/-- how many steps the workers still make at most -/
def work (c : Cache σ) : Nat := Pool.total (c.pools.toList.map (Pool.work Survey.weight))

/-- let every worker go on until none can -/
def settle (c : Cache σ) : Cache σ := run c.work c

end Cache
end Precinct
