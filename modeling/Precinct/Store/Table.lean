import Precinct.Store.Basic

/-!
# The plain store

* `Table`          regions by name, with the ledger of unsaved changes; queries ask every region;
* `Table.remove`   with `Removal.release` the children are put back without their parent; with
                   `Removal.cascade` the descendants are removed generation by generation.

`Table.cascade` takes the children of one removed name after the other.  Every child taken leaves
the table and joins the names still to be looked at, so the regions and the names together get one
fewer in every round.  Parent links that form a circle end it too: a region taken is no longer a
child of anything.
-/

namespace Precinct
open Std (ExtTreeMap)

/-- regions by name, with the ledger of unsaved changes -/
structure Table where
  contents : RegionMap := ∅
  ledger : Ledger := {}
  dirty : Bool := false

instance : Inhabited Table := ⟨{}⟩

namespace Table

/-! ## single steps -/

/-- put a region in and record the change -/
def insert (t : Table) (r : Region) : Table :=
  { contents := t.contents.insert r.id r, ledger := t.ledger.recordChange r, dirty := true }

/-- take the region stored under a name out and record the removal -/
def take (t : Table) (id : String) : Option (Region × Table) :=
  match t.contents[id]? with
  | none => none
  | some r =>
    some (r, { contents := t.contents.erase id, ledger := t.ledger.recordRemoval r, dirty := true })

def childrenOf (t : Table) (id : String) : List Region := t.contents.select (·.parent == some id)

/-- take the regions stored under several names out, one after the other -/
def takeAll (t : Table) : List String → List Region × Table
  | [] => ([], t)
  | id :: ids =>
    match t.take id with
    | none => t.takeAll ids
    | some (r, t') => let (rest, t'') := t'.takeAll ids; (r :: rest, t'')

/-- a region taken out leaves the table one smaller -/
theorem size_take {t t' : Table} {id : String} {r : Region} (h : t.take id = some (r, t')) :
    t'.contents.size + 1 = t.contents.size := by
  unfold take at h
  split at h
  · cases h
  · rename_i r' hr
    simp only [Option.some.injEq, Prod.mk.injEq] at h
    obtain ⟨rfl, rfl⟩ := h
    have hmem : id ∈ t.contents := by
      rw [ExtTreeMap.mem_iff_isSome_getElem?, hr]; rfl
    have hpos : 0 < t.contents.size := by
      rcases Nat.eq_zero_or_pos t.contents.size with h0 | h0
      · rw [ExtTreeMap.eq_empty_iff_size_eq_zero.mpr h0] at hmem
        simp at hmem
      · exact h0
    rw [ExtTreeMap.size_erase, if_pos (by simpa using hmem)]
    omega

/-- the regions taken out are those that the table loses -/
theorem size_takeAll (t : Table) (ids : List String) :
    (t.takeAll ids).1.length + (t.takeAll ids).2.contents.size = t.contents.size := by
  induction ids generalizing t with
  | nil => simp [takeAll]
  | cons id ids ih =>
    unfold takeAll
    cases h : t.take id with
    | none => exact ih t
    | some p =>
      obtain ⟨r, t'⟩ := p
      have h₁ := ih t'
      have h₂ := size_take h
      simp only [List.length_cons]
      omega

/-! ## removal -/

/-- take out the descendants of names already removed -/
def cascade (t : Table) : List String → List Region × Table
  | [] => ([], t)
  | id :: pending =>
    let children := t.takeAll ((t.childrenOf id).map Region.id)
    let (rest, t') := children.2.cascade (pending ++ children.1.map Region.id)
    (children.1 ++ rest, t')
termination_by pending => t.contents.size + pending.length
decreasing_by
  have h := size_takeAll t ((t.childrenOf id).map Region.id)
  simp only [List.length_append, List.length_map, List.length_cons]
  omega

/-- put the children of a removed region back without their parent -/
def release (t : Table) (id : String) : Table :=
  (t.childrenOf id).foldl (fun t child => t.insert child.withoutParent) t

def remove (t : Table) (id : String) (removal : Removal) : List Region × Table :=
  let name := Text.lowerCase id
  match t.take name with
  | none => ([], t)
  | some (r, t') =>
    match removal with
    | .release => ([r], t'.release name)
    | .cascade => let (rest, t'') := t'.cascade [name]; (r :: rest, t'')

/-! ## the other operations -/

/-- put several regions in, one after the other -/
def addAll (t : Table) (regions : List Region) : Table := regions.foldl insert t

def get? (t : Table) (id : String) : Option Region := t.contents[Text.lowerCase id]?

def containing (t : Table) (p : Block) : List Region := t.contents.select (·.contains p)

/-- the regions that may share a block with a region -/
def intersecting (t : Table) (r : Region) : List Region := t.contents.select (·.intersects r)

def setDirty (t : Table) (dirty : Bool) : Table :=
  { t with
    dirty
    ledger := if dirty then t.contents.foldl (fun l _ r => l.recordChange r) t.ledger else {} }

/-- the ledger of unsaved changes, which starts anew -/
def takeLedger (t : Table) : Ledger × Table := (t.ledger, { t with ledger := {}, dirty := false })

/-- give a ledger back: what was recorded since is newer -/
def restoreLedger (t : Table) (l : Ledger) : Table :=
  { t with ledger := l.merge t.ledger, dirty := true }

/-- a table of regions, all of them saved -/
def ofRegions (regions : List Region) : Table := (({} : Table).addAll regions).setDirty false

instance : RegionStore Table where
  add := insert
  addAll := addAll
  remove := remove
  get? := get?
  values t := t.contents.regions
  size t := t.contents.size
  containing t p := (t.containing p, t)
  intersecting t r := (t.intersecting r, t)
  isDirty := dirty
  setDirty := setDirty
  takeLedger := takeLedger
  restoreLedger := restoreLedger

end Table
end Precinct
