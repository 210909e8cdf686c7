import Precinct.Store.Choice

/-!
# Sessions with a store

* `StoreOp`      one operation on a store, as a value;
* `StoreReply`   what it answers;
* `Shelf`        the ledgers taken from a store and set aside under names;
* `StoreOp.perform`  the operation done to a store and a shelf.

`StoreOp.performOn` does an operation to a cache, as a store or behind its back; an operation that
breaks off answers with the fault.
-/

namespace Precinct
open Std (ExtTreeMap)

/-- one operation on a store -/
inductive StoreOp where
  | add (r : Region)
  | addAll (regions : List Region)
  | remove (id : String) (removal : Removal)
  | contains (id : String)
  | get (id : String)
  | values
  | size
  | isDirty
  | setDirty (dirty : Bool)
  /-- show every region to a visitor that stops at a limit -/
  | visitAll (limit : Option Nat)
  /-- show the regions that hold a block to such a visitor -/
  | visitContaining (p : Block) (limit : Option Nat)
  /-- show the regions that may share a block with a region to such a visitor -/
  | visitIntersecting (r : Region) (limit : Option Nat)
  | purgeContaining (p : Block) (removal : Removal)
  | purgeAll (removal : Removal)
  /-- take the ledger and set it aside under a name -/
  | takeLedger (name : String)
  /-- give back the ledger set aside under a name, which stays there -/
  | restoreShelved (name : String)
  | restoreLedger (l : Ledger)
  | hint (h : Hint)

/-- what an operation on a store answers -/
inductive StoreReply where
  | done
  | flag (b : Bool)
  | count (n : Nat)
  | found (r : Option Region)
  | listed (regions : List Region)
  /-- the regions removed, the one that was named first -/
  | removed (regions : List Region)
  | sighted (s : Sighting)
  | purged (visited : Nat) (removed : List Region)
  | ledger (l : Ledger)
  | broken (fault : Fault)

/-- ledgers set aside under names -/
abbrev Shelf := ExtTreeMap String Ledger compare

namespace StoreOp

def perform {σ : Type} [RegionStore σ] (op : StoreOp) (s : σ) (shelf : Shelf) :
    StoreReply × σ × Shelf :=
  match op with
  | add r => (.done, RegionStore.add s r, shelf)
  | addAll regions => (.done, RegionStore.addAll s regions, shelf)
  | remove id removal =>
    let (gone, s) := RegionStore.remove s id removal
    (.removed gone, s, shelf)
  | contains id => (.flag (RegionStore.get? s id).isSome, s, shelf)
  | get id => (.found (RegionStore.get? s id), s, shelf)
  | values => (.listed (RegionStore.values s), s, shelf)
  | size => (.count (RegionStore.size s), s, shelf)
  | isDirty => (.flag (RegionStore.isDirty s), s, shelf)
  | setDirty dirty => (.done, RegionStore.setDirty s dirty, shelf)
  | visitAll limit => (.sighted (sightings limit (RegionStore.values s)), s, shelf)
  | visitContaining p limit =>
    let (regions, s) := RegionStore.containing s p
    (.sighted (sightings limit regions), s, shelf)
  | visitIntersecting r limit =>
    let (regions, s) := RegionStore.intersecting s r
    (.sighted (sightings limit regions), s, shelf)
  | purgeContaining p removal =>
    let result := RegionStore.purgeContaining s p removal
    (.purged result.visited result.removed, result.store, shelf)
  | purgeAll removal => (.count (RegionStore.purgeAll s removal).visited,
      (RegionStore.purgeAll s removal).store, shelf)
  | takeLedger name =>
    let (l, s) := RegionStore.takeLedger s
    (.ledger l, s, shelf.insert name l)
  | restoreShelved name => (.done, RegionStore.restoreLedger s (shelf[name]?.getD {}), shelf)
  | restoreLedger l => (.done, RegionStore.restoreLedger s l, shelf)
  | hint h => (.done, RegionStore.hint s h, shelf)

variable {σ : Type} [RegionStore σ]

/-- the reply of an operation without an answer -/
def replyOf : Except Fault Unit → StoreReply
  | .ok () => .done
  | .error fault => .broken fault

def performOn (op : StoreOp) (c : Cache σ) (shelf : Shelf) : StoreReply × Cache σ × Shelf :=
  match op with
  | add r => let (outcome, c) := c.add r; (replyOf outcome, c, shelf)
  | addAll regions => let (outcome, c) := c.addAll regions; (replyOf outcome, c, shelf)
  | remove id removal =>
    match c.remove id removal with
    | (.ok gone, c) => (.removed gone, c, shelf)
    | (.error fault, c) => (.broken fault, c, shelf)
  | visitContaining p limit =>
    let (s, _, c) := c.visitContaining p limit
    (.sighted s, c, shelf)
  | visitIntersecting r limit =>
    match c.intersecting r with
    | (.ok regions, c) => (.sighted (sightings limit regions), c, shelf)
    | (.error fault, c) => (.broken fault, c, shelf)
  | purgeContaining p removal =>
    let result := c.purgeContaining p removal
    match result.fault with
    | some fault => (.broken fault, result.cache, shelf)
    | none => (.purged result.visited result.removed, result.cache, shelf)
  | purgeAll removal =>
    let result := c.purgeAll removal
    match result.fault with
    | some fault => (.broken fault, result.cache, shelf)
    | none => (.count result.visited, result.cache, shelf)
  | hint h => let (outcome, c) := c.hint h; (replyOf outcome, c, shelf)
  | op => op.perform c shelf

/-- do an operation to the store of a cache, behind its back; spatial queries are counted -/
def performBehind (op : StoreOp) (c : Cache σ) (shelf : Shelf) : StoreReply × Cache σ × Shelf :=
  let direct (w : Watched σ) : StoreReply × Cache σ × Shelf :=
    let (reply, store, shelf) := op.perform w.store shelf
    (reply, { c with store := { w with store } }, shelf)
  match op with
  | visitContaining _ _ | purgeContaining _ _ =>
    direct { c.store with containingCalls := c.store.containingCalls + 1 }
  | visitIntersecting r limit =>
    match c.intersecting r with
    | (.ok regions, c) => (.sighted (sightings limit regions), c, shelf)
    | (.error fault, c) => (.broken fault, c, shelf)
  | _ => direct c.store

end StoreOp
end Precinct
