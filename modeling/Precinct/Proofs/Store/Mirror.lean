import Mathlib
import Precinct.Proofs.Store.Indexed

/-!
# A store with a snapshot is a mirror of the plain one

* `StoreAct`           one operation on a store by itself, as a value;
* `Mirrors`            a store that nobody can tell from a table, but by the order in which regions
                       are shown;
* **`mirrors_of_run`** the two stores stay mirrors, whatever is done to both.

Both keep the same table, so what is left to see is that a snapshot is of the regions there are
(`Tree.Sound`), also after a removal that only rewrites parents.
-/

namespace Precinct

/-! ## mirrors -/

/-- one operation on a store by itself -/
inductive StoreAct where
  | write (w : Write)
  | chore (t : Chore)
  | containing (p : Block)
  | intersecting (r : Region)

section
variable {σ : Type} [RegionStore σ]

/-- the store after an operation -/
def StoreAct.apply (s : σ) : StoreAct → σ
  | write w => w.apply s
  | chore t => t.apply s
  | containing p => (RegionStore.containing s p).2
  | intersecting r => (RegionStore.intersecting s r).2

/-- what a visitor is shown of the regions that hold a block -/
def RegionStore.shownAt (s : σ) (p : Block) : List Region :=
  (sightings none (RegionStore.containing s p).1).shown

/-- what a visitor is shown of the regions that may share a block with a region -/
def RegionStore.shownAbout (s : σ) (r : Region) : List Region :=
  (sightings none (RegionStore.intersecting s r).1).shown

/-- a store that nobody can tell from a table, but by the order in which regions are shown, and its
snapshot, if there is one, is of the regions there are -/
structure Mirrors (t : Table) (s : σ) (snapshot : Option (List Region)) : Prop where
  get? : ∀ id, RegionStore.get? s id = RegionStore.get? t id
  values : RegionStore.values s = RegionStore.values t
  size : RegionStore.size s = RegionStore.size t
  isDirty : RegionStore.isDirty s = RegionStore.isDirty t
  ledger : (RegionStore.takeLedger s).1 = (RegionStore.takeLedger t).1
  /-- what the next removal takes out -/
  removed : ∀ id removal, (RegionStore.remove s id removal).1 = (RegionStore.remove t id removal).1
  shownAt : ∀ p, (RegionStore.shownAt s p).Perm (RegionStore.shownAt t p) ∧
    (RegionStore.shownAt s p).Nodup
  shownAbout : ∀ r, (RegionStore.shownAbout s r).Perm (RegionStore.shownAbout t r) ∧
    (RegionStore.shownAbout s r).Nodup
  snapshot : ∀ entries, snapshot = some entries → entries = RegionStore.values t

end

namespace Tree

/-- a sound tree mirrors its table -/
theorem Sound.mirrors {t : Tree} (h : t.Sound) : Mirrors t.table t t.snapshot := by
  have hshown : ∀ {l m : List Region}, l.Perm m → Region.Named m →
      (sightings none l).shown.Perm (sightings none m).shown ∧ (sightings none l).shown.Nodup := by
    intro l m hperm hnamed
    rw [sightings, sightings, shown_visitEach_note, shown_visitEach_note]
    exact ⟨hperm, (hnamed.perm hperm).of_map⟩
  have hat : ∀ p, (RegionStore.containing t.table p).1 = _ := fun p => RegionMap.select_eq _ _
  have habout : ∀ r, (RegionStore.intersecting t.table r).1 = _ := fun r => RegionMap.select_eq _ _
  refine ⟨fun _ => rfl, rfl, rfl, rfl, rfl, fun _ _ => rfl, fun p => ?_, fun r => ?_, h.snapshot⟩
  · exact hshown (hat p ▸ ExactStore.containing_perm h p)
      (hat p ▸ h.keyed.named.filter _)
  · exact hshown (habout r ▸ ExactStore.intersecting_perm h r)
      (habout r ▸ h.keyed.named.filter _)

/-- every operation keeps a tree sound, and does to its table what it does to the plain store -/
theorem Sound.apply {t : Tree} (h : t.Sound) (a : StoreAct) :
    (a.apply t).Sound ∧ (a.apply t).table = a.apply t.table := by
  cases a with
  | write w => exact ⟨@ExactStore.sound_write Tree _ _ t w h, Tabled.table_write t w⟩
  | chore c => exact ⟨@ExactStore.sound_chore Tree _ _ t c h, Tabled.table_chore t c⟩
  | containing p => exact ⟨h.load.2.2, h.load.2.1⟩
  | intersecting r => exact ⟨h.load.2.2, h.load.2.1⟩

theorem sound_run (regions : List Region) (acts : List StoreAct) :
    (acts.foldl StoreAct.apply (Tree.ofRegions regions)).Sound ∧
      (acts.foldl StoreAct.apply (Tree.ofRegions regions)).table =
        acts.foldl StoreAct.apply (Table.ofRegions regions) := by
  induction acts using List.reverseRecOn with
  | nil => exact ⟨Tree.sound_ofRegions regions, rfl⟩
  | append_singleton acts a ih =>
    rw [List.foldl_append, List.foldl_append]
    obtain ⟨hsound, htable⟩ := ih.1.apply a
    exact ⟨hsound, htable.trans (congrArg (StoreAct.apply · a) ih.2)⟩

end Tree

namespace Indexed
variable {κ : Type} [LinearOrder κ] {index : SpatialIndex κ}

/-- asking an index leaves the store as going through all regions does -/
theorem tree_run (index : SpatialIndex κ) (regions : List Region) (acts : List StoreAct) :
    tree (acts.foldl StoreAct.apply (ofRegions index regions)) =
      acts.foldl StoreAct.apply (Tree.ofRegions regions) := by
  have hact : ∀ (t : Indexed index) (a : StoreAct), tree (a.apply t) = a.apply t.tree := by
    intro t a
    cases a with
    | write w => cases w <;> rfl
    | chore c => cases c <;> rfl
    | containing p => rfl
    | intersecting r => rfl
  induction acts using List.reverseRecOn with
  | nil => rfl
  | append_singleton acts a ih =>
    rw [List.foldl_append, List.foldl_append, ← ih]
    exact hact _ a

/-- what mirrors a table still does if it asks an exact index -/
theorem mirrors_of_tree (exact : index.Exact) {t : Indexed index} {table : Table}
    {snapshot : Option (List Region)} (h : Mirrors table t.tree snapshot) :
    Mirrors table t snapshot := by
  have hshown : ∀ {l m n : List Region}, l.Perm m →
      ((sightings none m).shown.Perm n ∧ (sightings none m).shown.Nodup) →
      (sightings none l).shown.Perm n ∧ (sightings none l).shown.Nodup := by
    intro l m n hperm hm
    rw [sightings, shown_visitEach_note] at hm ⊢
    exact ⟨hperm.trans hm.1, hperm.nodup_iff.mpr hm.2⟩
  exact ⟨h.get?, h.values, h.size, h.isDirty, h.ledger, h.removed,
    fun p => hshown (t.tree.locate_perm exact p.ordered_box _) (h.shownAt p),
    fun r => hshown (t.tree.locate_perm exact r.ordered_bounds _) (h.shownAbout r), h.snapshot⟩

end Indexed

/-- **A store with a snapshot is a mirror of the plain one**: started from the same regions, the two
cannot be told apart after any operations, whichever exact index the snapshot is looked up with, or
if it is gone through region by region. -/
theorem mirrors_of_run {κ : Type} [LinearOrder κ] {index : SpatialIndex κ} (exact : index.Exact)
    (regions : List Region) (acts : List StoreAct) :
    Mirrors (acts.foldl StoreAct.apply (Table.ofRegions regions))
        (acts.foldl StoreAct.apply (Indexed.ofRegions index regions))
        (Indexed.tree (acts.foldl StoreAct.apply (Indexed.ofRegions index regions))).snapshot ∧
      Mirrors (acts.foldl StoreAct.apply (Table.ofRegions regions))
        (acts.foldl StoreAct.apply (Tree.ofRegions regions))
        (acts.foldl StoreAct.apply (Tree.ofRegions regions)).snapshot := by
  obtain ⟨hsound, htable⟩ := Tree.sound_run regions acts
  have hmirrors := hsound.mirrors
  rw [htable] at hmirrors
  have htree := Indexed.tree_run index regions acts
  refine ⟨?_, hmirrors⟩
  rw [htree]
  exact Indexed.mirrors_of_tree exact (htree ▸ hmirrors)

/-- the snapshot is taken, and then a removal rewrites the parent of the one region that stays -/
def askThenRelease : List StoreAct :=
  [.containing ⟨0, 3, 1⟩, .write (.remove "HOURGLASS" .release)]

/-- the region that stays is shown without its parent, though the snapshot had it -/
theorem bar_released :
    SpatialIndex.scanBackwards.Exact ∧
      (RegionStore.containing (Tree.ofRegions [.hourglass, Region.bar.withParent "hourglass"])
        ⟨0, 3, 1⟩).2.snapshot = some [Region.bar.withParent "hourglass", .hourglass] ∧
      (RegionStore.shownAt (askThenRelease.foldl StoreAct.apply
        (Indexed.ofRegions .scanBackwards [.hourglass, Region.bar.withParent "hourglass"]))
        ⟨0, 3, 1⟩).Perm [.bar] := by
  have hmirrors := (mirrors_of_run SpatialIndex.exact_scanBackwards
    [.hourglass, Region.bar.withParent "hourglass"] askThenRelease).1
  have hplain : RegionStore.shownAt (askThenRelease.foldl StoreAct.apply
      (Table.ofRegions [.hourglass, Region.bar.withParent "hourglass"])) ⟨0, 3, 1⟩ = [.bar] := by
    decide +kernel
  refine ⟨SpatialIndex.exact_scanBackwards, by decide +kernel, ?_⟩
  rw [← hplain]
  exact (hmirrors.shownAt ⟨0, 3, 1⟩).1

end Precinct
