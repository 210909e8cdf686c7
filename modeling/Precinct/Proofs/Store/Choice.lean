import Mathlib
import Precinct.Proofs.Store.Saves
import Precinct.Store.Choice

/-!
# A chosen store is as good as the one it was chosen from

* `Choice.held`        the table behind a chosen store, whichever it is;
* `Choice.Sound`       the invariant of the store that was chosen, if it answers by itself;
* `Choice.sound_ofRegions`, `Choice.held_ofRegions`  a fresh choice is sound and holds the regions.

A cache for a choice answers from its own sheets, so nothing is claimed of it as a store.  It keeps its
regions in the table behind it all the same.
-/

namespace Precinct
namespace Choice

/-- the table behind the store -/
def held : Choice → Table
  | table t => t
  | tree t => t.table
  | cached c => c.store.store

instance : Tabled Choice where
  table := held
  values_eq s := by cases s <;> rfl
  isDirty_eq s := by cases s <;> rfl
  ledger_eq s := by cases s <;> rfl
  table_write s w := by
    cases s with
    | table t => cases w <;> rfl
    | tree t => cases w <;> rfl
    | cached c =>
      have hwrite := Tabled.table_write c w
      cases w <;> exact hwrite
  table_chore s t := by cases s <;> cases t <;> rfl
  table_containing s p := by
    cases s with
    | table t => rfl
    | tree t => exact t.load_table
    | cached c => exact Tabled.table_containing c p
  table_intersecting s r := by
    cases s with
    | table t => rfl
    | tree t => exact t.load_table
    | cached c => exact Tabled.table_intersecting c r

/-- the invariant of a store that answers by itself -/
def Sound : Choice → Prop
  | table t => t.Keyed
  | tree t => t.Sound
  | cached _ => False

instance : ExactStore Choice where
  Sound := Sound
  named {s} h := by
    cases s with
    | table t => exact ExactStore.named (σ := Table) h
    | tree t => exact ExactStore.named (σ := Tree) h
    | cached c => exact h.elim
  sound_write {s} w h := by
    cases s with
    | table t =>
      have hwrite := ExactStore.sound_write (σ := Table) w h
      cases w <;> exact hwrite
    | tree t =>
      have hwrite := ExactStore.sound_write (σ := Tree) w h
      cases w <;> exact hwrite
    | cached c => exact h.elim
  sound_chore {s} t h := by
    cases s with
    | table s =>
      have hchore := ExactStore.sound_chore (σ := Table) t h
      cases t <;> exact hchore
    | tree s =>
      have hchore := ExactStore.sound_chore (σ := Tree) t h
      cases t <;> exact hchore
    | cached c => exact h.elim
  values_chore s t := by
    rw [Tabled.values_eq, Tabled.values_eq, Tabled.table_chore]
    cases t <;> rfl
  containing_perm {s} h p := by
    cases s with
    | table t => exact ExactStore.containing_perm (σ := Table) h p
    | tree t => exact ExactStore.containing_perm (σ := Tree) h p
    | cached c => exact h.elim
  sound_containing {s} h p := by
    cases s with
    | table t => exact h
    | tree t => exact ExactStore.sound_containing (σ := Tree) h p
    | cached c => exact h.elim
  values_containing s p := by
    rw [Tabled.values_eq, Tabled.values_eq, Tabled.table_containing]
  intersecting_perm {s} h r := by
    cases s with
    | table t => exact ExactStore.intersecting_perm (σ := Table) h r
    | tree t => exact ExactStore.intersecting_perm (σ := Tree) h r
    | cached c => exact h.elim
  sound_intersecting {s} h r := by
    cases s with
    | table t => exact h
    | tree t => exact ExactStore.sound_intersecting (σ := Tree) h r
    | cached c => exact h.elim
  values_intersecting s r := by
    rw [Tabled.values_eq, Tabled.values_eq, Tabled.table_intersecting]

theorem sound_ofRegions {kind : StoreKind} (h : kind ≠ .cached) (regions : List Region) :
    ExactStore.Sound (ofRegions kind regions) := by
  cases kind with
  | table => exact Table.keyed_ofRegions regions
  | tree => exact Tree.sound_ofRegions regions
  | cached => exact absurd rfl h

theorem held_ofRegions (kind : StoreKind) (regions : List Region) :
    Tabled.table (ofRegions kind regions) = Table.ofRegions regions := by
  cases kind <;> rfl

end Choice
end Precinct
