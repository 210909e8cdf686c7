import Precinct.Cache.Query
import Precinct.Store.Tree

/-!
# A store chosen while the program runs

* `StoreKind`  the stores on offer;
* `Choice`     one of them: a plain table, a tree, or a cache with the default settings over a
               table.  The default settings can name workers, so no operation of that cache breaks
               off.
-/

namespace Precinct

/-- the stores on offer -/
inductive StoreKind where
  | table
  | tree
  | cached
  deriving DecidableEq, Repr

/-- one of the stores on offer -/
inductive Choice where
  | table (t : Table)
  | tree (t : Tree)
  | cached (c : Cache Table)

namespace Choice

/-- a store of some kind that holds regions, all of them saved -/
def ofRegions (kind : StoreKind) (regions : List Region) : Choice :=
  match kind with
  | .table => .table (.ofRegions regions)
  | .tree => .tree (.ofRegions regions)
  | .cached => .cached (.ofSettings (.ofRegions regions) {})

/-- apply an operation of every store that changes it -/
def update (f : {σ : Type} → [RegionStore σ] → σ → σ) : Choice → Choice
  | .table t => .table (f t)
  | .tree t => .tree (f t)
  | .cached c => .cached (f c)

/-- apply an operation of every store that asks it -/
def ask {α : Type} (f : {σ : Type} → [RegionStore σ] → σ → α) : Choice → α
  | .table t => f t
  | .tree t => f t
  | .cached c => f c

/-- apply an operation of every store that changes it and answers -/
def act {α : Type} (f : {σ : Type} → [RegionStore σ] → σ → α × σ) : Choice → α × Choice
  | .table t => let (a, t) := f t; (a, .table t)
  | .tree t => let (a, t) := f t; (a, .tree t)
  | .cached c => let (a, c) := f c; (a, .cached c)

instance : RegionStore Choice where
  add s r := s.update fun t => RegionStore.add t r
  addAll s regions := s.update fun t => RegionStore.addAll t regions
  remove s id removal := s.act fun t => RegionStore.remove t id removal
  get? s id := s.ask fun t => RegionStore.get? t id
  values s := s.ask fun t => RegionStore.values t
  size s := s.ask fun t => RegionStore.size t
  containing s p := s.act fun t => RegionStore.containing t p
  intersecting s r := s.act fun t => RegionStore.intersecting t r
  isDirty s := s.ask fun t => RegionStore.isDirty t
  setDirty s dirty := s.update fun t => RegionStore.setDirty t dirty
  takeLedger s := s.act fun t => RegionStore.takeLedger t
  restoreLedger s l := s.update fun t => RegionStore.restoreLedger t l
  hint s h := s.update fun t => RegionStore.hint t h

end Choice
end Precinct
