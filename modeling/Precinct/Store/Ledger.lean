import Std.Data.ExtTreeMap
import Precinct.Region.Basic

/-!
# The ledger of unsaved changes

* `RegionMap`      regions by name; two maps with the same entries are equal;
* `Ledger`         the regions changed and the regions removed since it was last taken.  A name is
                   never in both: recording one way takes it out of the other;
* `Ledger.merge`   a newer ledger folded into an older one, removals first;
* `Ledger.replay`  what saving a ledger does to the saved regions.
-/

namespace Precinct
open Std (ExtTreeMap)

/-- regions by name -/
abbrev RegionMap := ExtTreeMap String Region compare

namespace RegionMap

/-- the map of a list, a later region of one name replacing an earlier one -/
def ofRegions (regions : List Region) : RegionMap :=
  regions.foldl (fun m r => m.insert r.id r) ∅

def regions (m : RegionMap) : List Region := m.foldr (fun _ r rest => r :: rest) []

/-- the regions that pass a test, by name -/
def select (m : RegionMap) (p : Region → Bool) : List Region :=
  m.foldr (fun _ r rest => if p r then r :: rest else rest) []

/-- the regions of a map are the second halves of its entries -/
theorem regions_eq (m : RegionMap) : m.regions = m.toList.map Prod.snd := by
  rw [regions, ExtTreeMap.foldr_eq_foldr_toList]
  induction m.toList with
  | nil => rfl
  | cons e es ih => rw [List.foldr_cons, ih, List.map_cons]

theorem select_eq (m : RegionMap) (p : Region → Bool) : m.select p = m.regions.filter p := by
  rw [regions_eq, select, ExtTreeMap.foldr_eq_foldr_toList]
  induction m.toList with
  | nil => rfl
  | cons e es ih => rw [List.foldr_cons, ih, List.map_cons, List.filter_cons]

end RegionMap

/-- the regions changed and removed since the ledger was last taken -/
structure Ledger where
  changed : RegionMap := ∅
  removed : RegionMap := ∅

instance : Inhabited Ledger := ⟨{}⟩

namespace Ledger

def isEmpty (l : Ledger) : Bool := l.changed.isEmpty && l.removed.isEmpty

def recordChange (l : Ledger) (r : Region) : Ledger :=
  { changed := l.changed.insert r.id r, removed := l.removed.erase r.id }

def recordRemoval (l : Ledger) (r : Region) : Ledger :=
  { changed := l.changed.erase r.id, removed := l.removed.insert r.id r }

/-- an older ledger followed by a newer one -/
def merge (older newer : Ledger) : Ledger :=
  newer.changed.foldl (fun l _ r => l.recordChange r)
    (newer.removed.foldl (fun l _ r => l.recordRemoval r) older)

/-- the saved regions after the ledger has been written to them -/
def replay (l : Ledger) (saved : RegionMap) : RegionMap :=
  l.changed.foldl (fun m _ r => m.insert r.id r) (l.removed.foldl (fun m _ r => m.erase r.id) saved)

end Ledger
end Precinct
