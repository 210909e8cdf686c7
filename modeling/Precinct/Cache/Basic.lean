import Precinct.Cache.Stats
import Precinct.Grid
import Precinct.Pool.Basic
import Precinct.Store.Watched

/-!
# The column cache

A cache wraps a store.  For every column it knows it keeps a sheet: once loaded, the regions that
may hold a block of the column, in layer order.  Sheets are loaded by surveys, background jobs on a
pool.

* `Sheet`            the contents of one column, published once and never changed;
* `Survey`           a background job: the columns still to be looked at, and where it stands;
* `Cache σ`          the state.  `columns` says which sheet a column has; sheets and pools are kept
                     by number, also those that are in use no longer, for a job may still be at
                     them;
* `Cache.turn`       a new epoch: the pool is cancelled and replaced, and no column is known;
* `Cache.renew`      a new epoch with the same known columns, which are surveyed again;
* `Cache.resolve`    the contents of a column if they are loaded, from the sheet that answered last
                     or from the column's own.

Each definition here that takes and returns a cache is one step which nothing comes between, except
for those that say otherwise.  `dismissed` holds the pools cancelled by an earlier `turn` that had
live workers; a pool that was only swapped out (`swapPool`) is not among them.
-/

namespace Precinct

/-! ## sheets and surveys -/

/-- the contents of one column, in layer order once they are loaded -/
structure Sheet where
  column : Column
  regions : Option (List Region) := none
  deriving DecidableEq

instance : Inhabited Sheet := ⟨{ column := default }⟩

namespace Sheet

def isLoaded (s : Sheet) : Bool := s.regions.isSome

/-- load the contents, unless they are loaded already; whether that was the first time -/
def publish (s : Sheet) (regions : List Region) : Bool × Sheet :=
  match s.regions with
  | some _ => (false, s)
  | none => (true, { s with regions := some regions })

end Sheet

/-- where a survey stands with the first of its columns -/
inductive SurveyPhase where
  /-- it is about to ask whether it was cancelled -/
  | checking
  /-- it is about to look the sheet of the column up -/
  | seeking
  /-- it has the sheet and is about to ask whether it is loaded -/
  | examining (sheet : Nat)
  /-- it is inside the store -/
  | querying (sheet : Nat)
  /-- it is about to publish what the store answered -/
  | publishing (sheet : Nat) (regions : List Region)
  deriving DecidableEq

/-- a background job that loads the sheets of some columns -/
structure Survey where
  epoch : Nat
  columns : List Column
  phase : SurveyPhase := .checking
  deriving DecidableEq

namespace Survey

/-- the survey goes on to its next column -/
def next (s : Survey) : Survey := { s with columns := s.columns.tail, phase := .checking }

/-- the steps that a survey still makes at most -/
def weight (s : Survey) : Nat :=
  5 * s.columns.length + 1 -
    match s.phase with
    | .checking => 0
    | .seeking => 1
    | .examining _ => 2
    | .querying _ => 3
    | .publishing _ _ => 4

end Survey

/-! ## the state -/

/-- a store with the sheets of the known columns -/
structure Cache (σ : Type) where
  store : Watched σ
  settings : Settings
  epoch : Nat := 0
  /-- the known columns, each with the number of its sheet -/
  columns : Grid Nat := {}
  sheets : Std.ExtTreeMap Nat Sheet compare := ∅
  pools : Array (Pool Survey)
  /-- the number of the pool that takes new jobs -/
  current : Nat := 0
  /-- the number of the sheet that answered last -/
  recent : Option Nat := none
  /-- the numbers of the cancelled pools whose workers may still be inside the store -/
  dismissed : List Nat := []
  counters : Counters := {}

namespace Cache
variable {σ : Type}

/-- a cache over a store, its settings unchecked -/
def ofSettings (store : σ) (settings : Settings) : Cache σ where
  store := { store }
  settings
  pools := #[{ settings := settings.pool }]

def make (store : σ) (settings : Settings) : Except SettingsError (Cache σ) := do
  settings.validate
  return ofSettings store settings

/-! ### sheets -/

def sheet (c : Cache σ) (i : Nat) : Sheet := c.sheets.getD i default

/-- the number of the sheet of a column, if the column is known -/
def sheetOf? (c : Cache σ) (column : Column) : Option Nat := c.columns.get? column

def isLoaded (c : Cache σ) (column : Column) : Bool :=
  (c.sheetOf? column).any fun i => (c.sheet i).isLoaded

/-- how many columns are known, loaded or not -/
def knownColumns (c : Cache σ) : Nat := c.columns.size

/-- make a column known; whether it was not known before -/
def insertMissing (c : Cache σ) (column : Column) : Bool × Cache σ :=
  if c.columns.contains column then (false, c)
  else
    (true, { c with
      columns := (c.columns.insert column c.sheets.size).2
      sheets := c.sheets.insert c.sheets.size { column } })

/-- make several columns known, one after the other; those that were not known before -/
def insertAllMissing (c : Cache σ) : List Column → List Column × Cache σ
  | [] => ([], c)
  | column :: rest =>
    let (new, c) := c.insertMissing column
    let (created, c) := c.insertAllMissing rest
    (if new then column :: created else created, c)

/-! ### pools -/

def pool (c : Cache σ) (k : Nat) : Pool Survey := c.pools.getD k default

/-- put the pool with a number into another state -/
def setPool (c : Cache σ) (k : Nat) (p : Pool Survey) : Cache σ :=
  { c with pools := c.pools.setIfInBounds k p }

def isLive (c : Cache σ) (k : Nat) : Bool := 0 < (c.pool k).live

/-- the time, in milliseconds, which the clocks of all pools show -/
def now (c : Cache σ) : Nat := (c.pool c.current).now

def freshPool (c : Cache σ) : Cache σ :=
  { c with
    pools := c.pools.push { settings := c.settings.pool, now := c.now }
    current := c.pools.size }

/-- let new jobs go to a fresh pool; the number of the pool that took them before -/
def swapPool (c : Cache σ) : Nat × Cache σ := (c.current, c.freshPool)

def closePool (c : Cache σ) (k : Nat) : Cache σ := c.setPool k (c.pool k).close

/-- start a new epoch without known columns.  The pool is cancelled and, if a worker of it is live,
dismissed; dismissed pools without live workers are forgotten.  How many jobs were discarded -/
def turn (c : Cache σ) : Nat × Cache σ :=
  let stale := c.current
  let (discarded, p) := (c.pool stale).cancel
  let c := c.setPool stale p
  let dismissed := c.dismissed.filter c.isLive
  (discarded,
    { c.freshPool with
      epoch := c.epoch + 1
      columns := {}
      recent := none
      dismissed := if c.isLive stale then dismissed ++ [stale] else dismissed })

/-! ### scheduling -/

/-- a list cut into pieces of a length, the last one maybe shorter -/
def batches (n : Nat) (columns : List Column) : List (List Column) :=
  if _h : n = 0 ∨ columns = [] then []
  else columns.take n :: batches n (columns.drop n)
termination_by columns.length
decreasing_by
  rcases columns with _ | ⟨c, cs⟩
  · simp at _h
  · simp only [List.length_drop, List.length_cons]
    omega

/-- submit a survey for each batch of columns; the first that cannot be taken up breaks off -/
def submitAll (c : Cache σ) : List (List Column) → Except Fault Unit × Cache σ
  | [] => (.ok (), c)
  | columns :: rest =>
    let (outcome, p) := (c.pool c.current).submit { epoch := c.epoch, columns }
    let c := c.setPool c.current p
    match outcome with
    | .error fault => (.error fault, c)
    | .ok () => c.submitAll rest

def schedule (c : Cache σ) (columns : List Column) : Except Fault Unit × Cache σ :=
  c.submitAll (batches c.settings.batchSize.toNat columns)

/-! ### hints -/

/-- make a column known and have it surveyed -/
def warm (c : Cache σ) (column : Column) : Except Fault Unit × Cache σ :=
  let (new, c) := c.insertMissing column
  if new then c.schedule [column] else (.ok (), c)

/-- make several columns known and have the new ones surveyed -/
def warmAll (c : Cache σ) (columns : List Column) : Except Fault Unit × Cache σ :=
  let (created, c) := c.insertAllMissing columns
  if created.isEmpty then (.ok (), c) else c.schedule created

def drop (c : Cache σ) (column : Column) : Cache σ :=
  { c with
    columns := (c.columns.remove column).2
    recent := if c.recent.any fun i => (c.sheet i).column == column then none else c.recent }

def dropAll (c : Cache σ) : Cache σ := c.turn.2

def hint (c : Cache σ) : Hint → Except Fault Unit × Cache σ
  | .warm column => c.warm column
  | .warmAll columns => c.warmAll columns
  | .drop column => (.ok (), c.drop column)
  | .dropAll => (.ok (), c.dropAll)

/-! ### renewal -/

/-- start a new epoch with the same known columns and have them surveyed -/
def renew (c : Cache σ) : Except Fault Unit × Cache σ :=
  let known := c.columns.keys
  let c := (c.turn.2.insertAllMissing known).2
  match c.schedule known with
  | (.error fault, c) => (.error fault, c)
  | (.ok (), c) =>
    (.ok (), { c with counters := { c.counters with rebuilds := c.counters.rebuilds + 1 } })

/-! ### queries -/

/-- the loaded contents of a column.  The sheet that answered last is asked first, if that is
wanted; the column's own sheet becomes it when it answers -/
def resolve (c : Cache σ) (column : Column) : Option (List Region) × Cache σ :=
  let viaRecent : Option (List Region) :=
    if c.settings.hotColumn then
      c.recent.bind fun i => if (c.sheet i).column = column then (c.sheet i).regions else none
    else none
  match viaRecent with
  | some regions =>
    (some regions,
      { c with counters := { c.counters with hotColumnHits := c.counters.hotColumnHits + 1 } })
  | none =>
    match c.sheetOf? column with
    | none => (none, c)
    | some i =>
      match (c.sheet i).regions with
      | none => (none, c)
      | some regions =>
        (some regions,
          { c with
            counters := { c.counters with columnHits := c.counters.columnHits + 1 }
            recent := if c.settings.hotColumn then some i else c.recent })

end Cache
end Precinct
