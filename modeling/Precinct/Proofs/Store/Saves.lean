import Mathlib
import Precinct.Proofs.Cache.Frame
import Precinct.Proofs.Region.Overlap
import Precinct.Proofs.Store.Replay

/-!
# Saving a store piece by piece

* `Tabled`             a store that keeps its regions and its ledger in a table: the plain store, the
                       store with a snapshot, and a cache over either;
* `TabledRemoval`      such a store that answers a removal as its table does;
* `Unsaved`            a store and the ledgers taken from it whose saving failed.  `Unsaved.Step`
                       changes the store, takes a ledger, or gives back the one taken last;
* `Saved`              a store right after it was made, cleared, or saved: nothing is recorded;
* `Unsaved.Faithful`   the invariant of such runs: `Table.Tracks`;
* `replay_of_saved`    **once every ledger was given back**, the present one leads from the saved
                       regions to those there are now.

A ledger that is never given back was saved.  Whatever comes after it starts from the regions there
were when it was taken.
-/

namespace Precinct
open Relation (ReflTransGen)

/-- a store that keeps its regions and its ledger in a table -/
class Tabled (σ : Type) [RegionStore σ] where
  table : σ → Table
  values_eq : ∀ s, RegionStore.values s = (table s).contents.regions
  isDirty_eq : ∀ s, RegionStore.isDirty s = (table s).dirty
  ledger_eq : ∀ s, (RegionStore.takeLedger s).1 = (table s).ledger
  table_write : ∀ (s : σ) (w : Write), table (w.apply s) = w.apply (table s)
  table_chore : ∀ (s : σ) (c : Chore), table (c.apply s) = c.apply (table s)
  table_containing : ∀ s p, table (RegionStore.containing s p).2 = table s
  table_intersecting : ∀ s r, table (RegionStore.intersecting s r).2 = table s

instance : Tabled Table where
  table := id
  values_eq _ := rfl
  isDirty_eq _ := rfl
  ledger_eq _ := rfl
  table_write _ _ := rfl
  table_chore _ _ := rfl
  table_containing _ _ := rfl
  table_intersecting _ _ := rfl

instance : Tabled Tree where
  table := Tree.table
  values_eq _ := rfl
  isDirty_eq _ := rfl
  ledger_eq _ := rfl
  table_write _ w := by cases w <;> rfl
  table_chore _ c := by cases c <;> rfl
  table_containing t _ := t.load_table
  table_intersecting t _ := t.load_table

/-- a store that removes what its table does -/
class TabledRemoval (σ : Type) [RegionStore σ] [Tabled σ] : Prop where
  removed_eq : ∀ (s : σ) (id : String) (removal : Removal),
    (RegionStore.remove s id removal).1 = ((Tabled.table s).remove id removal).1

instance : TabledRemoval Table := ⟨fun _ _ _ => rfl⟩

instance : TabledRemoval Tree := ⟨fun _ _ _ => rfl⟩

/-! ## a cache over such a store -/

namespace Cache
variable {σ : Type} (c : Cache σ)

theorem store_submitAll (batches : List (List Column)) : (c.submitAll batches).2.store = c.store := by
  induction batches generalizing c with
  | nil => rfl
  | cons batch batches ih =>
    rw [submitAll]
    dsimp only
    split
    · rfl
    · exact ih _

/-- renewing a cache leaves the store alone, even if it breaks off -/
theorem store_renew : c.renew.2.store = c.store := by
  have hall := store_submitAll (c.turn.2.insertAllMissing c.columns.keys).2
    (batches (c.turn.2.insertAllMissing c.columns.keys).2.settings.batchSize.toNat c.columns.keys)
  rw [(c.turn.2.insertAllMissing_frame c.columns.keys).1] at hall
  unfold renew schedule
  dsimp only
  split
  · rename_i hs
    rw [hs] at hall
    exact hall
  · rename_i hs
    rw [hs] at hall
    exact hall

variable [RegionStore σ]

theorem store_remove (id : String) (removal : Removal) :
    (RegionStore.remove c id removal).2.store =
      c.store.modify fun s => (RegionStore.remove s id removal).2 := by
  have hrenew := store_renew (c.modifyStore fun _ => (RegionStore.remove c.store.store id removal).2)
  rw [cache_remove]
  unfold Cache.remove
  dsimp only
  cases hr : (c.modifyStore fun _ => (RegionStore.remove c.store.store id removal).2).renew with
  | mk outcome d =>
    rw [hr] at hrenew
    cases outcome <;> exact hrenew

end Cache

instance {σ : Type} [RegionStore σ] [Tabled σ] : Tabled (Cache σ) where
  table c := Tabled.table c.store.store
  values_eq c := Tabled.values_eq c.store.store
  isDirty_eq c := Tabled.isDirty_eq c.store.store
  ledger_eq c := Tabled.ledger_eq c.store.store
  table_write c w := by
    cases w with
    | add r =>
      show Tabled.table (c.add r).2.store.store = _
      rw [Cache.add, Cache.store_renew]
      exact Tabled.table_write c.store.store (.add r)
    | addAll regions =>
      show Tabled.table (c.addAll regions).2.store.store = _
      rw [Cache.addAll, Cache.store_renew]
      exact Tabled.table_write c.store.store (.addAll regions)
    | remove id removal =>
      show Tabled.table (RegionStore.remove c id removal).2.store.store = _
      rw [Cache.store_remove]
      exact Tabled.table_write c.store.store (.remove id removal)
  table_chore c t := by
    cases t with
    | setDirty dirty => exact Tabled.table_chore c.store.store (.setDirty dirty)
    | takeLedger => exact Tabled.table_chore c.store.store .takeLedger
    | restoreLedger l => exact Tabled.table_chore c.store.store (.restoreLedger l)
  table_containing c p := by
    have hres := (c.resolved p.column).frame.1
    show Tabled.table (c.visitContaining p none).2.2.store.store = _
    unfold Cache.visitContaining
    cases hr : c.resolve p.column with
    | mk found d =>
      rw [hr] at hres
      cases found with
      | some regions => exact congrArg (fun w : Watched σ => Tabled.table w.store) hres
      | none =>
        rw [← hres]
        exact Tabled.table_containing d.store.store p
  table_intersecting c r := by
    have hstore : Tabled.table (c.intersecting r).2.store.store = Tabled.table c.store.store := by
      show Tabled.table (c.store.intersecting r).2.store = _
      unfold Watched.intersecting Watched.collect
      split
      · rfl
      · exact Tabled.table_intersecting c.store.store r
    show Tabled.table (match c.intersecting r with
      | (.ok regions, c) => (regions, c) | (.error _, c) => ([], c)).2.store.store = _
    cases hi : c.intersecting r with
    | mk outcome d =>
      rw [hi] at hstore
      cases outcome <;> exact hstore

/-! ## runs -/

/-- a store and the ledgers taken from it whose saving failed, the latest first -/
structure Unsaved (σ : Type) where
  store : σ
  shelf : List Ledger := []

section
variable {σ : Type} [RegionStore σ]

/-- one operation on a store that is saved by its ledgers -/
inductive Unsaved.Step (u : Unsaved σ) : Unsaved σ → Prop
  | write (w : Write) : Step u { u with store := w.apply u.store }
  | markAll : Step u { u with store := RegionStore.setDirty u.store true }
  | take : Step u
      ⟨(RegionStore.takeLedger u.store).2, (RegionStore.takeLedger u.store).1 :: u.shelf⟩
  | giveBack {l : Ledger} {shelf : List Ledger} (latest : u.shelf = l :: shelf) :
      Step u ⟨RegionStore.restoreLedger u.store l, shelf⟩
  | containing (p : Block) : Step u { u with store := (RegionStore.containing u.store p).2 }
  | intersecting (r : Region) : Step u { u with store := (RegionStore.intersecting u.store r).2 }

variable [Tabled σ]

/-- a store that was made of regions and then used in any way -/
def Used (s : σ) : Prop :=
  ∃ made regions, Tabled.table made = Table.ofRegions regions ∧ ReflTransGen StoreStep made s

/-- a store with nothing recorded: just made, cleared, or relieved of a ledger that was saved -/
inductive Saved : σ → Prop
  | made {s : σ} {regions : List Region} (new : Tabled.table s = Table.ofRegions regions) : Saved s
  | cleared {s : σ} (used : Used s) : Saved (RegionStore.setDirty s false)
  | taken {s : σ} (used : Used s) : Saved (RegionStore.takeLedger s).2

/-- a used store keeps its regions under their names, and says so if something is recorded -/
theorem Used.sound {s : σ} (h : Used s) : (Tabled.table s).Keyed ∧ (Tabled.table s).Honest := by
  obtain ⟨made, regions, hmade, hsteps⟩ := h
  induction hsteps with
  | refl =>
    rw [hmade]
    exact ⟨Table.keyed_ofRegions regions, fun _ => rfl⟩
  | tail _ hstep ih =>
    cases hstep with
    | write w =>
      rw [Tabled.table_write]
      exact ⟨ih.1.write w, ih.2.write w⟩
    | chore t =>
      rw [Tabled.table_chore]
      refine ⟨?_, Table.honest_chore _ t⟩
      cases t <;> exact ih.1
    | containing p =>
      rw [Tabled.table_containing]
      exact ih
    | intersecting r =>
      rw [Tabled.table_intersecting]
      exact ih

theorem Used.step {s s' : σ} (h : Used s) (hs : StoreStep s s') : Used s' := by
  obtain ⟨made, regions, hmade, hsteps⟩ := h
  exact ⟨made, regions, hmade, hsteps.tail hs⟩

theorem Saved.used {s : σ} (h : Saved s) : Used s := by
  cases h with
  | @made s regions new => exact ⟨s, regions, new, .refl⟩
  | cleared used => exact used.step (.chore (.setDirty false))
  | taken used => exact used.step (.chore .takeLedger)

theorem Saved.ledger_eq {s : σ} (h : Saved s) : (Tabled.table s).ledger = {} := by
  cases h with
  | made new =>
    rw [new]
    rfl
  | @cleared s used =>
    show (Tabled.table (Chore.apply s (.setDirty false))).ledger = {}
    rw [Tabled.table_chore]
    rfl
  | @taken s used =>
    show (Tabled.table (Chore.apply s .takeLedger)).ledger = {}
    rw [Tabled.table_chore]
    rfl

/-- what holds of a store since its regions were saved -/
structure Unsaved.Faithful (saved : RegionMap) (u : Unsaved σ) : Prop where
  used : Used u.store
  tracks : (Tabled.table u.store).Tracks saved u.shelf

theorem Unsaved.Faithful.step {saved : RegionMap} {u u' : Unsaved σ} (h : u.Faithful saved)
    (hs : Unsaved.Step u u') : u'.Faithful saved := by
  have hkeyed := h.used.sound.1
  cases hs with
  | write w =>
    refine ⟨h.used.step (.write w), ?_⟩
    show (Tabled.table (w.apply u.store)).Tracks saved u.shelf
    rw [Tabled.table_write]
    exact h.tracks.write hkeyed w
  | markAll =>
    refine ⟨h.used.step (.chore (.setDirty true)), ?_⟩
    show (Tabled.table (Chore.apply u.store (.setDirty true))).Tracks saved u.shelf
    rw [Tabled.table_chore]
    exact h.tracks.markAll hkeyed
  | take =>
    refine ⟨h.used.step (.chore .takeLedger), ?_⟩
    show (Tabled.table (Chore.apply u.store .takeLedger)).Tracks saved
      ((RegionStore.takeLedger u.store).1 :: u.shelf)
    rw [Tabled.table_chore, Tabled.ledger_eq]
    exact h.tracks.takeLedger
  | @giveBack l shelf latest =>
    refine ⟨h.used.step (.chore (.restoreLedger l)), ?_⟩
    show (Tabled.table (Chore.apply u.store (.restoreLedger l))).Tracks saved shelf
    rw [Tabled.table_chore]
    exact Table.Tracks.restoreLedger (latest ▸ h.tracks)
  | containing p =>
    refine ⟨h.used.step (.containing p), ?_⟩
    show (Tabled.table (RegionStore.containing u.store p).2).Tracks saved u.shelf
    rw [Tabled.table_containing]
    exact h.tracks
  | intersecting r =>
    refine ⟨h.used.step (.intersecting r), ?_⟩
    show (Tabled.table (RegionStore.intersecting u.store r).2).Tracks saved u.shelf
    rw [Tabled.table_intersecting]
    exact h.tracks

theorem Saved.faithful {s : σ} (h : Saved s) :
    Unsaved.Faithful (Tabled.table s).contents { store := s } :=
  ⟨h.used, Table.tracks_of_ledger_eq h.ledger_eq⟩

theorem Saved.faithful_of_steps {s : σ} {u : Unsaved σ} (h : Saved s)
    (hu : ReflTransGen Unsaved.Step { store := s } u) :
    u.Faithful (Tabled.table s).contents := by
  induction hu with
  | refl => exact h.faithful
  | tail _ hstep ih => exact ih.step hstep

/-- **Once every ledger was given back the present one replays exactly**: no name is in both halves,
and removing the one half from the saved regions and writing the other gives the present regions.  A
store that is not dirty has nothing recorded, whatever was given back. -/
theorem replay_of_saved {s : σ} {u : Unsaved σ} (h : Saved s)
    (hu : ReflTransGen Unsaved.Step { store := s } u) :
    (u.shelf = [] →
      (∀ id : String, id ∈ (RegionStore.takeLedger u.store).1.changed →
        id ∉ (RegionStore.takeLedger u.store).1.removed) ∧
      (RegionStore.takeLedger u.store).1.replay (Tabled.table s).contents =
        (Tabled.table u.store).contents) ∧
    (RegionStore.isDirty u.store = false → (RegionStore.takeLedger u.store).1 = {}) := by
  have hfaithful := h.faithful_of_steps hu
  rw [Tabled.ledger_eq, Tabled.isDirty_eq]
  refine ⟨fun hshelf => ⟨fun id hchanged hremoved => ?_, ?_⟩, hfaithful.used.sound.2⟩
  · rw [Std.ExtTreeMap.mem_iff_isSome_getElem?] at hchanged hremoved
    rcases hfaithful.tracks.proper.apart id with hnone | hnone
    · rw [hnone] at hchanged
      cases hchanged
    · rw [hnone] at hremoved
      cases hremoved
  · have htracks := hfaithful.tracks
    rw [hshelf] at htracks
    exact htracks.replay

end

/-- a region was removed and the one below it released, saving that failed, and the region was added
again in another layer before the ledger came back -/
def Unsaved.retried : Unsaved Table where
  store :=
    let t := ((Table.ofRegions [.hourglass, Region.bar.withParent "hourglass"]).remove "hourglass"
      .release).2
    (t.takeLedger.2.insert (Region.hourglass.withPriority 3)).restoreLedger t.takeLedger.1

theorem hourglass_and_bar_replayed :
    Unsaved.retried.store.ledger.changed.keys = ["bar", "hourglass"] ∧
      Unsaved.retried.store.ledger.removed.keys = [] ∧
      Unsaved.retried.store.ledger.replay
          (Table.ofRegions [.hourglass, Region.bar.withParent "hourglass"]).contents =
        Unsaved.retried.store.contents ∧
      Unsaved.retried.store.takeLedger.2.ledger = {} := by
  have hsaved : Saved (Table.ofRegions [.hourglass, Region.bar.withParent "hourglass"]) := .made rfl
  have hsteps : ReflTransGen Unsaved.Step
      { store := Table.ofRegions [.hourglass, Region.bar.withParent "hourglass"] }
      Unsaved.retried := by
    refine .tail (.tail (.tail (.single (.write (.remove "hourglass" .release))) .take)
      (.write (.add (Region.hourglass.withPriority 3)))) (.giveBack rfl)
  refine ⟨by decide +kernel, by decide +kernel, ?_, ?_⟩
  · exact ((replay_of_saved hsaved hsteps).1 rfl).2
  · exact (replay_of_saved hsaved (hsteps.tail .take)).2 rfl

end Precinct
