import Precinct.Store.Ledger

/-!
# Stores

* `Removal`      what becomes of the children of a removed region;
* `Hint`         what a host says about columns; a plain store ignores it;
* `RegionStore`  what every store can do.  A spatial query returns the store too, for a store may
                 keep something to answer the next one faster;
* `visitEach`    a visitor run over collected regions until it asks to stop;
* `Sighting`     what a visitor that counts has seen.

Regions are collected before the first of them is shown, so a visitor may change the store that it
is visiting: `purgeContaining` and `purgeAll` are such visitors.
-/

namespace Precinct

/-- what becomes of the children of a removed region -/
inductive Removal where
  /-- they stay and lose their parent -/
  | release
  /-- they are removed too, and so are theirs -/
  | cascade
  deriving DecidableEq, Inhabited, Repr

/-- what a host says about columns -/
inductive Hint where
  | warm (c : Column)
  | warmAll (cs : List Column)
  | drop (c : Column)
  | dropAll
  deriving DecidableEq, Repr

/-- what happens in the world of a store -/
inductive WorldEvent where
  | worldLoaded (columns : List Column)
  | areaLoaded (area : Box)
  | columnLoaded (c : Column)
  | columnUnloaded (c : Column)
  | worldUnloaded
  deriving DecidableEq, Repr

/-- the hint that an event of the world amounts to -/
def WorldEvent.hint : WorldEvent → Hint
  | worldLoaded columns => .warmAll columns
  | areaLoaded area => .warmAll area.columns
  | columnLoaded c => .warm c
  | columnUnloaded c => .drop c
  | worldUnloaded => .dropAll

/-- what every store can do -/
class RegionStore (σ : Type) where
  /-- add a region, in place of one of the same name -/
  add : σ → Region → σ
  /-- add several regions, one after the other -/
  addAll : σ → List Region → σ
  /-- remove a region by name; all regions that went with it, it first -/
  remove : σ → String → Removal → List Region × σ
  /-- the region of a name -/
  get? : σ → String → Option Region
  /-- all regions -/
  values : σ → List Region
  /-- how many regions there are -/
  size : σ → Nat
  /-- the regions that hold a block -/
  containing : σ → Block → List Region × σ
  /-- the regions that may share a block with a region -/
  intersecting : σ → Region → List Region × σ
  /-- whether there are unsaved changes -/
  isDirty : σ → Bool
  /-- declare everything unsaved, or nothing -/
  setDirty : σ → Bool → σ
  /-- the ledger of unsaved changes, which starts anew -/
  takeLedger : σ → Ledger × σ
  /-- give a ledger back, say after saving it failed -/
  restoreLedger : σ → Ledger → σ
  /-- what a host says about columns -/
  hint : σ → Hint → σ := fun s _ => s

/-! ## visitors -/

/-- run a visitor over regions until it asks to stop; the visitor says whether to go on -/
def visitEach {τ : Type} (visitor : Region → τ → Bool × τ) : List Region → τ → τ
  | [], t => t
  | r :: rest, t =>
    match visitor r t with
    | (true, t') => visitEach visitor rest t'
    | (false, t') => t'

/-- what a visitor that may stop has seen, latest first -/
structure Sighting where
  seen : List Region := []
  stopped : Bool := false

namespace Sighting

/-- note one more region; ask to stop once `limit` were seen -/
def note (limit : Option Nat) (r : Region) (s : Sighting) : Bool × Sighting :=
  let seen := r :: s.seen
  let full := limit.any (· ≤ seen.length)
  (!full, ⟨seen, full⟩)

/-- the regions seen, in the order in which they were shown -/
def shown (s : Sighting) : List Region := s.seen.reverse

end Sighting

/-- show regions to a visitor that stops at a limit -/
def sightings (limit : Option Nat) (regions : List Region) : Sighting :=
  visitEach (Sighting.note limit) regions {}

namespace RegionStore
variable {σ : Type} [RegionStore σ]

/-! ## visitors that change the store -/

/-- what a visitor that removes has done: how many regions it was shown and which ones went -/
structure Purge (σ : Type) where
  store : σ
  visited : Nat := 0
  removed : List Region := []

def Purge.visit (removal : Removal) (r : Region) (p : Purge σ) : Bool × Purge σ :=
  let (gone, store) := remove p.store r.id removal
  (true, ⟨store, p.visited + 1, p.removed ++ gone⟩)

/-- remove every region that holds a block, from a visitor of those regions -/
def purgeContaining (s : σ) (p : Block) (removal : Removal) : Purge σ :=
  let (regions, s) := containing s p
  visitEach (Purge.visit removal) regions { store := s }

/-- remove every region, from a visitor of all regions -/
def purgeAll (s : σ) (removal : Removal) : Purge σ :=
  visitEach (Purge.visit removal) (values s) { store := s }

end RegionStore
end Precinct
