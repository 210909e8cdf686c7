import Mathlib
import Precinct.Proofs.Store.Felling

/-!
# Removing a region and releasing those below it

* `Table.size_putBack`  children put back make a table no larger, and `putBack_of_perm`: the order in
                       which they are listed makes no difference;
* `Region.Freed`       a region like another one, but without a parent;
* `Table.Released`     what the removal comes to: one region goes, its children stay and lose the link,
                       and of all the others nothing changes and nothing is recorded;
* `Table.released_remove`  a table, **`released_of_used`** any store that was used in any way.

The region is taken out before its children are looked for.  So a region that is its own parent is not
put back, and a name that was recorded before ends up in one half of the ledger only.
-/

namespace Precinct
open Std (ExtTreeMap)

/-- a region like another one, but without a parent -/
structure Region.Freed (r r' : Region) : Prop where
  id : r'.id = r.id
  priority : r'.priority = r.priority
  shape : r'.shape = r.shape
  bounds : r'.bounds = r.bounds
  parent : r'.parent = none

theorem Region.freed_withoutParent (r : Region) : r.Freed r.withoutParent := ⟨rfl, rfl, rfl, rfl, rfl⟩

namespace Table
variable {t t' taken : Table} {r : Region} {children : List Region} {a id : String}

/-! ## children put back -/

theorem size_putBack (h : ∀ q ∈ children, q.id ∈ t.contents) :
    (t.putBack children).contents.size = t.contents.size := by
  induction children generalizing t with
  | nil => rfl
  | cons q rest ih =>
    have hsize : (t.insert q.withoutParent).contents.size = t.contents.size :=
      ExtTreeMap.size_insert.trans (if_pos (h q List.mem_cons_self))
    refine (ih (t := t.insert q.withoutParent) fun p hp => ?_).trans hsize
    exact ExtTreeMap.mem_insert.mpr (Or.inr (h p (List.mem_cons_of_mem q hp)))

theorem dirty_putBack (h : t.dirty = true) (children : List Region) :
    (t.putBack children).dirty = true :=
  List.foldlRecOn children _ (motive := fun t : Table => t.dirty = true) h fun _ _ _ _ => rfl

theorem getElem?_changed_insert (t : Table) (r : Region) (id : String) :
    (t.insert r).ledger.changed[id]? = if r.id = id then some r else t.ledger.changed[id]? :=
  RegionMap.getElem?_insert_id t.ledger.changed r id

theorem getElem?_removed_insert (t : Table) (r : Region) (id : String) :
    (t.insert r).ledger.removed[id]? = if r.id = id then none else t.ledger.removed[id]? :=
  RegionMap.getElem?_erase_id t.ledger.removed r id

/-- **The order of the children** makes no difference: of each name the table shows what it does if they
come by name. -/
theorem putBack_of_perm (h : t.Keyed) (hdirty : t.dirty = true)
    (listed : children.Perm (t.childrenOf a)) : t.putBack children = t.release a := by
  have same : ∀ {γ : Type} (id : String) (view : Table → γ) (g : Region → γ),
      (∀ t r, view (insert t r) = if r.id = id then g r else view t) →
      view (t.putBack children) = view (t.release a) := by
    intro γ id view g hinsert
    obtain ⟨hchild, hother⟩ := view_putBack h listed id view g hinsert
    obtain ⟨hchild', hother'⟩ := view_putBack h (.refl (t.childrenOf a)) id view g hinsert
    by_cases hof : t.contents.ChildOf a id
    · obtain ⟨q, hq, hparent⟩ := hof
      exact (hchild q hq hparent).trans (hchild' q hq hparent).symm
    · exact (hother hof).trans (hother' hof).symm
  have hcontents : (t.putBack children).contents = (t.release a).contents :=
    ExtTreeMap.ext_getElem? fun id => same id (·.contents[id]?) some (getElem?_insert · · id)
  have hchanged : (t.putBack children).ledger.changed = (t.release a).ledger.changed :=
    ExtTreeMap.ext_getElem? fun id =>
      same id (·.ledger.changed[id]?) some (getElem?_changed_insert · · id)
  have hremoved : (t.putBack children).ledger.removed = (t.release a).ledger.removed :=
    ExtTreeMap.ext_getElem? fun id =>
      same id (·.ledger.removed[id]?) (fun _ => none) (getElem?_removed_insert · · id)
  have hdirty' : (t.putBack children).dirty = (t.release a).dirty :=
    (dirty_putBack hdirty children).trans (dirty_putBack hdirty (t.childrenOf a)).symm
  generalize t.putBack children = u at *
  generalize t.release a = v at *
  obtain ⟨uc, ⟨uch, ure⟩, ud⟩ := u
  obtain ⟨vc, ⟨vch, vre⟩, vd⟩ := v
  obtain rfl : uc = vc := hcontents
  obtain rfl : uch = vch := hchanged
  obtain rfl : ure = vre := hremoved
  obtain rfl : ud = vd := hdirty'
  rfl

/-! ## what the removal comes to -/

/-- a table after a region was removed from it and its children were released -/
structure Released (t : Table) (r : Region) (t' : Table) : Prop where
  /-- the region leaves the table and is recorded as removed -/
  gone : t'.contents[r.id]? = none ∧ t'.ledger.removed[r.id]? = some r ∧
    t'.ledger.changed[r.id]? = none
  /-- any other region whose parent it was stays, without that, and is recorded as changed -/
  freed : ∀ q : Region, t.contents[q.id]? = some q → q.parent = some r.id → q.id ≠ r.id →
    ∃ q', q.Freed q' ∧ t'.contents[q.id]? = some q' ∧ t'.ledger.changed[q.id]? = some q' ∧
      t'.ledger.removed[q.id]? = none
  /-- under every other name nothing changes and nothing is recorded -/
  others : ∀ id : String, id ≠ r.id → ¬t.contents.ChildOf r.id id →
    t'.contents[id]? = t.contents[id]? ∧ t'.ledger.changed[id]? = t.ledger.changed[id]? ∧
      t'.ledger.removed[id]? = t.ledger.removed[id]?
  size : t'.contents.size + 1 = t.contents.size
  unlinked : ∀ (id : String) (q : Region), t'.contents[id]? = some q → q.parent ≠ some r.id
  dirty : t'.dirty = true

/-- **A region taken out and its children put back**: nothing but the link is lost. -/
theorem released_release (h : t.Keyed) (ht : t.take id = some (r, taken)) :
    t.Released r (taken.release id) := by
  obtain ⟨hlost, rfl⟩ := lost_take h ht
  obtain ⟨hledger, hdirty⟩ := ledger_take ht
  have hname : ∀ {id}, id ∈ [r].map Region.id ↔ id = r.id := List.mem_singleton
  have hchanged : ∀ id, taken.ledger.changed[id]? =
      if r.id = id then none else t.ledger.changed[id]? := fun id => by
    rw [hledger]
    exact RegionMap.getElem?_erase_id t.ledger.changed r id
  have hremoved : ∀ id, taken.ledger.removed[id]? =
      if r.id = id then some r else t.ledger.removed[id]? := fun id => by
    rw [hledger]
    exact RegionMap.getElem?_insert_id t.ledger.removed r id
  have listed := List.Perm.refl (taken.childrenOf r.id)
  have contents := fun id => view_putBack hlost.keyed listed id (·.contents[id]?) some
    (getElem?_insert · · id)
  have changed := fun id => view_putBack hlost.keyed listed id (·.ledger.changed[id]?) some
    (getElem?_changed_insert · · id)
  have removed := fun id => view_putBack hlost.keyed listed id (·.ledger.removed[id]?)
    (fun _ => none) (getElem?_removed_insert · · id)
  rw [release_eq]
  refine ⟨?_, ?_, ?_, ?_, ?_, dirty_putBack hdirty _⟩
  · -- taken out, it is nobody's child
    have hno : ¬taken.contents.ChildOf r.id r.id := fun hchild =>
      (hlost.without.childOf.mp hchild).2 (hname.mpr rfl)
    refine ⟨((contents r.id).2 hno).trans (hlost.without.lost r.id (hname.mpr rfl)), ?_, ?_⟩
    · exact ((removed r.id).2 hno).trans ((hremoved r.id).trans (if_pos rfl))
    · exact ((changed r.id).2 hno).trans ((hchanged r.id).trans (if_pos rfl))
  · intro q hq hparent hne
    have hkept := (hlost.without.kept q.id fun hm => hne (hname.mp hm)).trans hq
    exact ⟨q.withoutParent, q.freed_withoutParent, (contents q.id).1 q hkept hparent,
      (changed q.id).1 q hkept hparent, (removed q.id).1 q hkept hparent⟩
  · intro id hne hno
    have hno' : ¬taken.contents.ChildOf r.id id := fun hchild =>
      hno (hlost.without.childOf.mp hchild).1
    refine ⟨((contents id).2 hno').trans (hlost.without.kept id fun hm => hne (hname.mp hm)), ?_, ?_⟩
    · exact ((changed id).2 hno').trans ((hchanged id).trans (if_neg (Ne.symm hne)))
    · exact ((removed id).2 hno').trans ((hremoved id).trans (if_neg (Ne.symm hne)))
  · rw [size_putBack fun q hq => ?_]
    · exact size_take ht
    · rw [ExtTreeMap.mem_iff_isSome_getElem?, ((region_mem_childrenOf hlost.keyed).mp hq).1]
      rfl
  · intro id q hq hparent
    by_cases hof : taken.contents.ChildOf r.id id
    · obtain ⟨p, hp, hp'⟩ := hof
      rw [(contents id).1 p hp hp'] at hq
      cases hq
      cases hparent
    · exact hof ⟨q, ((contents id).2 hof).symm.trans hq, hparent⟩

/-- removing a region that there is releases what is below it, in whatever order that is listed -/
theorem released_remove (h : t.Keyed) (hr : t.contents[Text.lowerCase id]? = some r) :
    (t.remove id .release).1 = [r] ∧ t.Released r (t.remove id .release).2 ∧
      ∃ taken, t.take (Text.lowerCase id) = some (r, taken) ∧
        ∀ children, children.Perm (taken.childrenOf (Text.lowerCase id)) →
          taken.putBack children = (t.remove id .release).2 := by
  obtain ⟨taken, ht⟩ := exists_take hr
  obtain ⟨hlost, -⟩ := lost_take h ht
  rw [remove_release ht]
  exact ⟨rfl, released_release h ht, taken, ht,
    fun children listed => putBack_of_perm hlost.keyed (ledger_take ht).2 listed⟩

end Table

/-- **Removing a region from a store and releasing those below it.**  An unknown name removes nothing and
changes nothing.  Otherwise one region goes, and its children lose the link to it, whatever links there
are and however the children are listed. -/
theorem released_of_used {σ : Type} [RegionStore σ] [Tabled σ] [TabledRemoval σ] {s : σ}
    (used : Used s) (id : String) :
    ((Tabled.table s).contents[Text.lowerCase id]? = none →
      (RegionStore.remove s id .release).1 = [] ∧
      Tabled.table (RegionStore.remove s id .release).2 = Tabled.table s) ∧
    ∀ r, (Tabled.table s).contents[Text.lowerCase id]? = some r →
      (RegionStore.remove s id .release).1 = [r] ∧
      (Tabled.table s).Released r (Tabled.table (RegionStore.remove s id .release).2) ∧
      ∃ taken, (Tabled.table s).take (Text.lowerCase id) = some (r, taken) ∧
        ∀ children, children.Perm (taken.childrenOf (Text.lowerCase id)) →
          taken.putBack children = Tabled.table (RegionStore.remove s id .release).2 := by
  have htable : Tabled.table (RegionStore.remove s id .release).2 =
      ((Tabled.table s).remove id .release).2 := Tabled.table_write s (.remove id .release)
  rw [htable, TabledRemoval.removed_eq]
  refine ⟨fun hnone => ?_, fun r hr => Table.released_remove used.sound.1 hr⟩
  rw [Table.remove_of_none hnone]
  exact ⟨rfl, rfl⟩

/-- the tangle of regions, of which the one that is its own parent was removed -/
def Table.calmed : Table := ((Table.ofRegions Region.tangle).remove "eddy" .release).2

theorem tangle_released :
    (∃ r, Table.calmed.contents["hourglass"]? = some r ∧
      (Table.calmed.remove "Hourglass" .release).1 = [r] ∧
      Table.calmed.Released r (Table.calmed.remove "Hourglass" .release).2) ∧
    Table.calmed.contents.keys = ["bar", "hourglass", "leaf", "stray"] ∧
    (Table.calmed.remove "Hourglass" .release).2.contents.keys = ["bar", "leaf", "stray"] ∧
    (Table.calmed.remove "Hourglass" .release).2.ledger.changed.keys = ["bar"] ∧
    (Table.calmed.remove "Hourglass" .release).2.ledger.removed.keys = ["eddy", "hourglass"] ∧
    (Table.calmed.remove "nowhere" .release).2 = Table.calmed := by
  have made : Used (Table.ofRegions Region.tangle) := ⟨_, _, rfl, .refl⟩
  have used : Used Table.calmed := made.step (.write (.remove "eddy" .release))
  have hlower : Text.lowerCase "Hourglass" = "hourglass" := by decide +kernel
  have hthere : Table.calmed.contents["hourglass"]? = some (Region.hourglass.withParent "bar") := by
    decide +kernel
  obtain ⟨hremoved, hreleased, -⟩ := (released_of_used used "Hourglass").2 _ (hlower ▸ hthere)
  refine ⟨⟨_, hthere, hremoved, hreleased⟩, by decide +kernel, by decide +kernel, by decide +kernel,
    by decide +kernel, ?_⟩
  exact ((released_of_used used "nowhere").1 (by decide +kernel)).2

end Precinct
