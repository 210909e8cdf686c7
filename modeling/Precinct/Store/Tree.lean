import Precinct.Store.Table

/-!
# The store with a spatial snapshot

* `Tree`       a table and, between changes, a snapshot of its regions taken by the first spatial
               query after a change;
* `Tree.near`  the regions of the snapshot whose boxes overlap a box: all that a query looks at.

A change drops the snapshot.  Removing an unknown name changes nothing, so it keeps the snapshot.
-/

namespace Precinct

/-- a table with a snapshot for spatial queries -/
structure Tree where
  table : Table := {}
  snapshot : Option (List Region) := none

instance : Inhabited Tree := ⟨{}⟩

namespace Tree

/-- a tree of regions, all of them saved -/
def ofRegions (regions : List Region) : Tree := { table := .ofRegions regions }

/-- the snapshot, taken now if a change dropped it -/
def load (t : Tree) : List Region × Tree :=
  match t.snapshot with
  | some regions => (regions, t)
  | none =>
    let regions := t.table.contents.regions
    (regions, { t with snapshot := some regions })

/-- the regions whose boxes overlap a box and that pass a test -/
def near (t : Tree) (box : Box) (p : Region → Bool) : List Region × Tree :=
  let (regions, t) := t.load
  (regions.filter fun r => r.bounds.overlaps box && p r, t)

def containing (t : Tree) (p : Block) : List Region × Tree := t.near ⟨p, p⟩ (·.contains p)

/-- the regions that may share a block with a region -/
def intersecting (t : Tree) (r : Region) : List Region × Tree := t.near r.bounds (·.intersects r)

def add (t : Tree) (r : Region) : Tree := { table := t.table.insert r }

/-- put several regions in, one after the other -/
def addAll (t : Tree) (regions : List Region) : Tree := { table := t.table.addAll regions }

def remove (t : Tree) (id : String) (removal : Removal) : List Region × Tree :=
  let (removed, table) := t.table.remove id removal
  (removed, { table, snapshot := if removed.isEmpty then t.snapshot else none })

instance : RegionStore Tree where
  add := add
  addAll := addAll
  remove := remove
  get? t := t.table.get?
  values t := t.table.contents.regions
  size t := t.table.contents.size
  containing := containing
  intersecting := intersecting
  isDirty t := t.table.dirty
  setDirty t dirty := { t with table := t.table.setDirty dirty }
  takeLedger t := let (l, table) := t.table.takeLedger; (l, { t with table })
  restoreLedger t l := { t with table := t.table.restoreLedger l }

end Tree
end Precinct
