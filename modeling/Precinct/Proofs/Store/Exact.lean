import Mathlib
import Precinct.Proofs.Region.Layers
import Precinct.Store.Tree

/-!
# Stores that answer exactly

* `Write`        an operation that changes which regions a store holds;
* `Chore`        one that changes only what is recorded about them;
* `StoreStep`    any operation on a store, queries included;
* `ExactStore`   a store with an invariant under which no two regions have one name and a spatial
                 query answers with the regions that pass its test, each once, in any order;
* `Table.Keyed`  the invariant of the plain store: each region is stored under its own name;
* `Tree.Sound`   that of the store with a snapshot: a snapshot is of the present regions.

Both stores are exact: one asks every region, the other first compares boxes, and no test passes a
region whose box lies elsewhere.
-/

namespace Precinct
open Std (ExtTreeMap)

/-- an operation that changes which regions a store holds -/
inductive Write where
  | add (r : Region)
  | addAll (regions : List Region)
  | remove (id : String) (removal : Removal)

/-- an operation that changes only what is recorded about unsaved changes -/
inductive Chore where
  | setDirty (dirty : Bool)
  | takeLedger
  | restoreLedger (l : Ledger)

section
variable {σ : Type} [RegionStore σ]

/-- the store after a write -/
def Write.apply (s : σ) : Write → σ
  | .add r => RegionStore.add s r
  | .addAll regions => RegionStore.addAll s regions
  | .remove id removal => (RegionStore.remove s id removal).2

/-- the store after a chore -/
def Chore.apply (s : σ) : Chore → σ
  | .setDirty dirty => RegionStore.setDirty s dirty
  | .takeLedger => (RegionStore.takeLedger s).2
  | .restoreLedger l => RegionStore.restoreLedger s l

end

/-- one operation on a store by itself -/
inductive StoreStep {σ : Type} [RegionStore σ] (s : σ) : σ → Prop
  | write (w : Write) : StoreStep s (w.apply s)
  | chore (t : Chore) : StoreStep s (t.apply s)
  | containing (p : Block) : StoreStep s (RegionStore.containing s p).2
  | intersecting (r : Region) : StoreStep s (RegionStore.intersecting s r).2

/-- a store whose spatial queries answer exactly, as long as its invariant holds -/
class ExactStore (σ : Type) [RegionStore σ] where
  /-- the invariant -/
  Sound : σ → Prop
  named : ∀ {s : σ}, Sound s → Region.Named (RegionStore.values s)
  sound_write : ∀ {s : σ} (w : Write), Sound s → Sound (w.apply s)
  sound_chore : ∀ {s : σ} (t : Chore), Sound s → Sound (t.apply s)
  values_chore : ∀ (s : σ) (t : Chore), RegionStore.values (t.apply s) = RegionStore.values s
  containing_perm : ∀ {s : σ}, Sound s → ∀ p,
    (RegionStore.containing s p).1.Perm ((RegionStore.values s).filter (·.contains p))
  sound_containing : ∀ {s : σ}, Sound s → ∀ p, Sound (RegionStore.containing s p).2
  values_containing : ∀ (s : σ) p,
    RegionStore.values (RegionStore.containing s p).2 = RegionStore.values s
  intersecting_perm : ∀ {s : σ}, Sound s → ∀ r,
    (RegionStore.intersecting s r).1.Perm ((RegionStore.values s).filter (·.intersects r))
  sound_intersecting : ∀ {s : σ}, Sound s → ∀ r, Sound (RegionStore.intersecting s r).2
  values_intersecting : ∀ (s : σ) r,
    RegionStore.values (RegionStore.intersecting s r).2 = RegionStore.values s

namespace ExactStore
variable {σ : Type} [RegionStore σ] [ExactStore σ] {s t : σ}

theorem sound_of_steps (h : Sound s) (hs : Relation.ReflTransGen StoreStep s t) : Sound t := by
  induction hs with
  | refl => exact h
  | tail _ hstep ih =>
    cases hstep with
    | write w => exact sound_write w ih
    | chore t => exact sound_chore t ih
    | containing p => exact sound_containing ih p
    | intersecting r => exact sound_intersecting ih r

/-- in layers the order in which a store answers is gone -/
theorem inLayers_containing (h : Sound s) (p : Block) :
    Region.inLayers (RegionStore.containing s p).1 =
      Region.inLayers ((RegionStore.values s).filter (·.contains p)) :=
  Region.inLayers_congr ((named h).filter _) (containing_perm h p)

theorem inLayers_intersecting (h : Sound s) (r : Region) :
    Region.inLayers (RegionStore.intersecting s r).1 =
      Region.inLayers ((RegionStore.values s).filter (·.intersects r)) :=
  Region.inLayers_congr ((named h).filter _) (intersecting_perm h r)

end ExactStore

/-! ## the plain store -/

namespace Table

/-- every region is stored under its own name -/
def Keyed (t : Table) : Prop := ∀ (id : String) (r : Region), t.contents[id]? = some r → r.id = id

section
variable {t : Table}

theorem keyed_empty : ({} : Table).Keyed := by
  intro id r h
  rw [show ({} : Table).contents[id]? = none from ExtTreeMap.getElem?_empty] at h
  cases h

/-- so no two regions have one name -/
theorem Keyed.named (h : t.Keyed) : Region.Named t.contents.regions := by
  have hids : t.contents.regions.map Region.id = t.contents.keys := by
    rw [RegionMap.regions_eq, List.map_map, ← ExtTreeMap.map_fst_toList_eq_keys]
    refine List.map_congr_left fun e he => ?_
    exact h e.1 e.2 (ExtTreeMap.mem_toList_iff_getElem?_eq_some.mp he)
  rw [Region.Named, hids]
  exact ExtTreeMap.nodup_keys

theorem Keyed.insert (h : t.Keyed) (r : Region) : (t.insert r).Keyed := by
  intro id r' hr
  rw [show (t.insert r).contents[id]? = (t.contents.insert r.id r)[id]? from rfl,
    ExtTreeMap.getElem?_insert] at hr
  split at hr
  · rename_i hc
    cases hr
    exact Std.LawfulEqOrd.eq_of_compare hc
  · exact h id r' hr

theorem Keyed.take {t' : Table} {id : String} {r : Region} (h : t.Keyed)
    (ht : t.take id = some (r, t')) : t'.Keyed := by
  unfold Table.take at ht
  split at ht
  · cases ht
  · cases ht
    intro id' r' hr
    rw [show (t.contents.erase id)[id']? = _ from ExtTreeMap.getElem?_erase] at hr
    split at hr
    · cases hr
    · exact h id' r' hr

/-! ### what every write keeps -/

theorem takeAll_induct {P : Table → Prop}
    (htake : ∀ t id r t', P t → take t id = some (r, t') → P t') (ids : List String) (h : P t) :
    P (t.takeAll ids).2 := by
  induction ids generalizing t with
  | nil => exact h
  | cons id ids ih =>
    unfold Table.takeAll
    cases ht : t.take id with
    | none => exact ih h
    | some e => exact ih (htake t id e.1 e.2 h ht)

theorem cascade_induct {P : Table → Prop}
    (htake : ∀ t id r t', P t → take t id = some (r, t') → P t') (pending : List String) (h : P t) :
    P (t.cascade pending).2 := by
  induction t, pending using Table.cascade.induct with
  | case1 t =>
    rw [Table.cascade]
    exact h
  | case2 t id pending children _ _ _ ih =>
    rw [Table.cascade]
    exact ih (takeAll_induct htake _ h)

/-- what putting a region in and taking one out keep, every write keeps -/
theorem write_induct {P : Table → Prop} (hinsert : ∀ t r, P t → P (insert t r))
    (htake : ∀ t id r t', P t → take t id = some (r, t') → P t') (w : Write) (h : P t) :
    P (w.apply t) := by
  have hall : ∀ (f : Region → Region) (regions : List Region) (t : Table), P t →
      P (regions.foldl (fun t r => t.insert (f r)) t) := fun f regions t h =>
    List.foldlRecOn regions _ h fun t ht r _ => hinsert t (f r) ht
  cases w with
  | add r => exact hinsert t r h
  | addAll regions => exact hall id regions t h
  | remove id removal =>
    show P (t.remove id removal).2
    unfold Table.remove
    dsimp only
    cases ht : t.take (Text.lowerCase id) with
    | none => exact h
    | some e =>
      have htaken := htake t _ e.1 e.2 h ht
      cases removal with
      | release => exact hall Region.withoutParent _ e.2 htaken
      | cascade => exact cascade_induct htake _ htaken

theorem Keyed.write (w : Write) (h : t.Keyed) : (w.apply t).Keyed :=
  write_induct (fun _ r ht => Keyed.insert ht r) (fun _ _ _ _ => Keyed.take) w h

end

instance : ExactStore Table where
  Sound := Keyed
  named := Keyed.named
  sound_write w h := h.write w
  sound_chore c h := by cases c <;> exact h
  values_chore t c := by cases c <;> rfl
  containing_perm _ p := .of_eq (RegionMap.select_eq _ _)
  sound_containing h _ := h
  values_containing _ _ := rfl
  intersecting_perm _ r := .of_eq (RegionMap.select_eq _ _)
  sound_intersecting h _ := h
  values_intersecting _ _ := rfl

theorem keyed_ofRegions (regions : List Region) : (Table.ofRegions regions).Keyed :=
  keyed_empty.write (.addAll regions)

end Table

/-! ## the store with a snapshot -/

namespace Tree

/-- the table is sound, and a snapshot is of the present regions -/
structure Sound (t : Tree) : Prop where
  keyed : t.table.Keyed
  snapshot : ∀ regions, t.snapshot = some regions → regions = t.table.contents.regions

section
variable {t : Tree}

theorem sound_of_keyed {table : Table} (h : table.Keyed) : Sound { table } :=
  ⟨h, fun _ hs => nomatch hs⟩

theorem Sound.load (h : t.Sound) :
    t.load.1 = t.table.contents.regions ∧ t.load.2.table = t.table ∧ t.load.2.Sound := by
  unfold Tree.load
  cases hs : t.snapshot with
  | none => exact ⟨rfl, rfl, h.keyed, fun regions he => (Option.some.inj he).symm⟩
  | some regions => exact ⟨h.snapshot regions hs, rfl, h⟩

theorem load_table (t : Tree) : t.load.2.table = t.table := by
  unfold Tree.load
  cases t.snapshot <;> rfl

theorem Sound.near_eq (h : t.Sound) (box : Box) (p : Region → Bool) :
    (t.near box p).1 = t.table.contents.regions.filter fun r => r.bounds.overlaps box && p r := by
  show t.load.1.filter _ = _
  rw [h.load.1]

theorem remove_eq_self {table : Table} {id : String} {removal : Removal}
    (h : (table.remove id removal).1.isEmpty = true) : (table.remove id removal).2 = table := by
  unfold Table.remove at h ⊢
  dsimp only at h ⊢
  cases ht : table.take (Text.lowerCase id) with
  | none => rfl
  | some e =>
    rw [ht] at h
    cases removal <;> exact absurd h Bool.false_ne_true

theorem Sound.remove (h : t.Sound) (id : String) (removal : Removal) :
    (t.remove id removal).2.Sound := by
  refine ⟨h.keyed.write (.remove id removal), fun regions hs => ?_⟩
  have hsnap : (t.remove id removal).2.snapshot =
      if (t.table.remove id removal).1.isEmpty then t.snapshot else none := rfl
  rw [hsnap] at hs
  split at hs
  · rename_i hempty
    rw [h.snapshot regions hs]
    show _ = (t.table.remove id removal).2.contents.regions
    rw [remove_eq_self hempty]
  · cases hs

end

/-- a block of a region is in the box of the region -/
theorem overlaps_of_contains {r : Region} {p : Block} (h : r.contains p = true) :
    r.bounds.overlaps ⟨p, p⟩ = true := by
  rw [Region.contains, Bool.and_eq_true] at h
  exact h.1

instance : ExactStore Tree where
  Sound := Sound
  named h := h.keyed.named
  sound_write w h := by
    cases w with
    | add r => exact sound_of_keyed (h.keyed.write (.add r))
    | addAll regions => exact sound_of_keyed (h.keyed.write (.addAll regions))
    | remove id removal => exact h.remove id removal
  sound_chore c h := by cases c <;> exact ⟨h.keyed, h.snapshot⟩
  values_chore t c := by cases c <;> rfl
  containing_perm {s} h p := by
    show (s.near _ _).1.Perm _
    rw [h.near_eq]
    refine .of_eq (List.filter_congr fun r _ => ?_)
    cases hc : r.contains p with
    | false => exact Bool.and_false _
    | true => rw [overlaps_of_contains hc, Bool.and_self]
  sound_containing h _ := h.load.2.2
  values_containing t _ := congrArg (·.contents.regions) t.load_table
  intersecting_perm {s} h r := by
    show (s.near _ _).1.Perm _
    rw [h.near_eq]
    refine .of_eq (List.filter_congr fun r' _ => ?_)
    rw [Region.intersects, ← Bool.and_assoc, Bool.and_self]
  sound_intersecting h _ := h.load.2.2
  values_intersecting t _ := congrArg (·.contents.regions) t.load_table

theorem sound_ofRegions (regions : List Region) : (Tree.ofRegions regions).Sound :=
  sound_of_keyed (Table.keyed_ofRegions regions)

end Tree
end Precinct
