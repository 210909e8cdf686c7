import Precinct.Cache.Session

/-!
# Caches by world

* `Registry σ`        a cache for every loaded world, by the name of the world.  Caches are numbered
                      in the order of loading and stay reachable by number after their world is
                      gone.  Each has a shelf for ledgers of its own;
* `Registry.load`     wrap a store for a world.  Settings that are refused change nothing; a cache
                      that the name had before forgets its columns;
* `Registry.perform`  do an operation to the cache with a number;
* `Registry.unload`   forget a world and wait for the surveys of its cache; `false` for an unknown
                      one;
* `Registry.shutdown` unload every world.

Each cache has workers of its own, and time is common to all: while one cache is waited for, the
background work of the others settles too, and their workers grow tired of waiting.
-/

namespace Precinct
open Std (ExtTreeMap)

/-- caches by the name of their world -/
structure Registry (σ : Type) where
  caches : Array (Cache σ) := #[]
  /-- the number of the cache of each loaded world -/
  worlds : ExtTreeMap String Nat compare := ∅
  /-- the numbers of all caches ever loaded for a world, latest first -/
  history : ExtTreeMap String (List Nat) compare := ∅
  /-- the shelves of the caches, by number -/
  shelves : ExtTreeMap Nat Shelf compare := ∅

instance {σ : Type} : Inhabited (Registry σ) := ⟨{}⟩

namespace Registry
variable {σ : Type}

def names (r : Registry σ) : List String := r.worlds.keys

def size (r : Registry σ) : Nat := r.worlds.size

def isEmpty (r : Registry σ) : Bool := r.worlds.isEmpty

/-- the number of the cache of a loaded world -/
def find? (r : Registry σ) (name : String) : Option Nat := r.worlds[name]?

def cache? (r : Registry σ) (i : Nat) : Option (Cache σ) := r.caches[i]?

/-- the number of the latest cache loaded for a world, be it loaded still or not -/
def latest? (r : Registry σ) (name : String) : Option Nat := (r.history[name]?.getD []).head?

/-- the number of the cache loaded for a world before the latest one -/
def previous? (r : Registry σ) (name : String) : Option Nat := (r.history[name]?.getD [])[1]?

/-- put the cache with a number into another state -/
def setCache (r : Registry σ) (i : Nat) (c : Cache σ) : Registry σ :=
  { r with caches := r.caches.setIfInBounds i c }

variable [RegionStore σ]

def modifyCache (r : Registry σ) (i : Nat) (f : Cache σ → Cache σ) : Registry σ :=
  { r with caches := r.caches.modify i f }

/-- the shelf of the cache with a number -/
def shelf (r : Registry σ) (i : Nat) : Shelf := r.shelves[i]?.getD ∅

/-- the cache with a number is waited for, and some time passes: the others go on meanwhile -/
def passBeside (r : Registry σ) (i ms : Nat) : Registry σ :=
  { r with caches := r.caches.mapIdx fun k c => if k = i then c else c.settle.elapse ms }

/-- put the cache with a number into the state after an operation, which may have taken time -/
def commit (r : Registry σ) (i : Nat) (waited : Bool) (before after : Cache σ) : Registry σ :=
  (if waited then r.passBeside i (after.now - before.now) else r).setCache i after

/-- do an operation to the cache with a number and to its shelf; none for an unknown one -/
def perform (r : Registry σ) (i : Nat) (op : CacheOp) : Option (CacheReply × Registry σ) :=
  (r.cache? i).map fun c =>
    let (reply, after, shelf) := op.perform c (r.shelf i)
    let r := r.commit i (op.hasToWait c) c after
    (reply, { r with shelves := r.shelves.insert i shelf })

/-- wrap a store for a world, in place of a cache that the world has already -/
def load (r : Registry σ) (name : String) (store : σ) (settings : Settings) :
    Except SettingsError (Registry σ) := do
  let c ← Cache.make store settings
  let i := r.caches.size
  let replaced := r.find? name
  let r :=
    { r with
      caches := r.caches.push c
      worlds := r.worlds.insert name i
      history := r.history.insert name (i :: r.history[name]?.getD []) }
  return match replaced with
    | some old => r.modifyCache old Cache.dropAll
    | none => r

/-- forget a world and wait for the surveys of its cache; whether they stopped -/
def unload (r : Registry σ) (name : String) (ms : Nat) : Bool × Registry σ :=
  match r.find? name with
  | none => (false, r)
  | some i =>
    let r := { r with worlds := r.worlds.erase name }
    match r.cache? i with
    | none => (false, r)
    | some c =>
      let (stopped, after) := c.dropAllAndWait ms
      (stopped, r.commit i ((CacheOp.dropAllAndWait ms).hasToWait c) c after)

def unloadAll (r : Registry σ) (ms : Nat) : List String → Bool × Registry σ
  | [] => (true, r)
  | name :: rest =>
    let (stopped, r) := r.unload name ms
    let (others, r) := r.unloadAll ms rest
    (stopped && others, r)

def shutdown (r : Registry σ) (ms : Nat) : Bool × Registry σ := r.unloadAll ms r.names

/-- tell the cache of a loaded world what happens there; none for an unknown world -/
def notify (r : Registry σ) (name : String) (event : WorldEvent) :
    Option (Except Fault Nat × Registry σ) :=
  (r.find? name).bind fun i => (r.cache? i).map fun c =>
    let (outcome, c) := c.hint event.hint
    (outcome.map fun () => c.knownColumns, r.setCache i c)

end Registry
end Precinct
