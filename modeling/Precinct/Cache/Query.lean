import Precinct.Cache.Background

/-!
# Answers and changes of a cache

* `Cache.visitContaining`  a visitor over the regions that hold a block: from a loaded sheet, in
                       layer order, or else from the store;
* `Cache.regionsAt`    all of them, in layer order whoever answers;
* `Cache.add`, `Cache.addAll`, `Cache.remove`  change the store, then renew the cache.

None of them waits for the background work: a column whose survey has not come to it yet is not
loaded, and the store answers for it.
-/

namespace Precinct
namespace Cache
variable {σ : Type} [RegionStore σ]

/-! ## queries -/

/-- show the regions that pass a test to a visitor, until it asks to stop -/
def visitWhere {τ : Type} (p : Region → Bool) (visitor : Region → τ → Bool × τ) :
    List Region → τ → τ
  | [], t => t
  | r :: rest, t =>
    if p r then
      match visitor r t with
      | (true, t') => visitWhere p visitor rest t'
      | (false, t') => t'
    else visitWhere p visitor rest t

/-- the store answers, and that is counted -/
def fallBack (c : Cache σ) (p : Block) : List Region × Cache σ :=
  let (regions, store) := c.store.containing p
  (regions,
    { c with
      store
      counters := { c.counters with storeFallbacks := c.counters.storeFallbacks + 1 } })

/-- what a visitor of the regions that hold a block has seen, and whether a sheet answered -/
def visitContaining (c : Cache σ) (p : Block) (limit : Option Nat) : Sighting × Bool × Cache σ :=
  match c.resolve p.column with
  | (some regions, c) => (visitWhere (·.contains p) (Sighting.note limit) regions {}, true, c)
  | (none, c) =>
    let (regions, c) := c.fallBack p
    (sightings limit regions, false, c)

/-- the regions that hold a block, in layer order -/
def regionsAt (c : Cache σ) (p : Block) : List Region × Cache σ :=
  let (s, _, c) := c.visitContaining p none
  (Region.inLayers s.shown, c)

/-- the regions that may share a block with a region, from the store -/
def intersecting (c : Cache σ) (r : Region) : Except Fault (List Region) × Cache σ :=
  let (answer, store) := c.store.intersecting r
  (answer, { c with store })

/-! ## changes -/

/-- change the wrapped store and nothing else -/
def modifyStore (c : Cache σ) (f : σ → σ) : Cache σ := { c with store := c.store.modify f }

def add (c : Cache σ) (r : Region) : Except Fault Unit × Cache σ :=
  (c.modifyStore (RegionStore.add · r)).renew

def addAll (c : Cache σ) (regions : List Region) : Except Fault Unit × Cache σ :=
  (c.modifyStore (RegionStore.addAll · regions)).renew

/-- remove a region by name; all regions that went with it, it first -/
def remove (c : Cache σ) (id : String) (removal : Removal) : Except Fault (List Region) × Cache σ :=
  let (removed, store) := RegionStore.remove c.store.store id removal
  match (c.modifyStore fun _ => store).renew with
  | (.ok (), c) => (.ok removed, c)
  | (.error fault, c) => (.error fault, c)

/-! ## visitors that change the cache -/

/-- what a visitor that removes through a cache has done, and whether it was broken off -/
structure Purge (σ : Type) where
  cache : Cache σ
  visited : Nat := 0
  removed : List Region := []
  fault : Option Fault := none

def Purge.visit (removal : Removal) (r : Region) (p : Purge σ) : Bool × Purge σ :=
  match p.cache.remove r.id removal with
  | (.ok gone, cache) => (true, { cache, visited := p.visited + 1, removed := p.removed ++ gone })
  | (.error fault, cache) => (false, { p with cache, fault := some fault })

/-- remove every region that holds a block, from a visitor of those regions -/
def purgeContaining (c : Cache σ) (p : Block) (removal : Removal) : Purge σ :=
  match c.resolve p.column with
  | (some regions, c) =>
    visitWhere (·.contains p) (Purge.visit removal) regions { cache := c }
  | (none, c) =>
    let (regions, c) := c.fallBack p
    visitEach (Purge.visit removal) regions { cache := c }

/-- remove every region, from a visitor of all regions -/
def purgeAll (c : Cache σ) (removal : Removal) : Purge σ :=
  visitEach (Purge.visit removal) (RegionStore.values c.store.store) { cache := c }

/-! ## a cache as a store -/

/-- A cache can stand for its store.  An operation that breaks off has the effect it had up to
then. -/
instance : RegionStore (Cache σ) where
  add c r := (c.add r).2
  addAll c regions := (c.addAll regions).2
  remove c id removal :=
    match c.remove id removal with
    | (.ok removed, c) => (removed, c)
    | (.error _, c) => ([], c)
  get? c id := RegionStore.get? c.store.store id
  values c := RegionStore.values c.store.store
  size c := RegionStore.size c.store.store
  containing c p := let (s, _, c) := c.visitContaining p none; (s.shown, c)
  intersecting c r :=
    match c.intersecting r with
    | (.ok regions, c) => (regions, c)
    | (.error _, c) => ([], c)
  isDirty c := RegionStore.isDirty c.store.store
  setDirty c dirty := c.modifyStore (RegionStore.setDirty · dirty)
  takeLedger c :=
    let (l, store) := RegionStore.takeLedger c.store.store
    (l, c.modifyStore fun _ => store)
  restoreLedger c l := c.modifyStore (RegionStore.restoreLedger · l)
  hint c h := (c.hint h).2

end Cache
end Precinct
