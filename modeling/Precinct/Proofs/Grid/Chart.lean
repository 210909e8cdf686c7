import Mathlib
import Precinct.Proofs.Grid

/-!
# A sparse map over columns is a finite map

* `Grid.Edit`          an operation that changes a map over columns, done to a grid (`Edit.onGrid`) or to
                       the finite map that it is meant to be (`Edit.onMap`);
* `Grid.entries`       the columns of a grid with their values, each column once;
* `Grid.entries_eq`    they are those of a finite map as soon as look-ups agree;
* `Grid.Charts`        so whatever is asked of the grid, it answers like that map;
* `Grid.charts_run`    **a new grid does so after any edits**.

Only look-ups are followed from edit to edit.  The rest is told by the entries at the end, for a list
without repetition is known by its members.
-/

namespace Precinct
open Std (ExtTreeMap)

/-- a finite map from columns, without any packing -/
abbrev ColumnFinmap (V : Type) := Finmap fun _ : Column => V

namespace Grid
variable {V : Type}

/-! ## edits -/

/-- an operation that changes a map over columns -/
inductive Edit (V : Type) where
  | insert (c : Column) (v : V)
  | remove (c : Column)
  | clear

namespace Edit

/-- what a grid answers to an edit, and the grid afterwards -/
def onGrid (g : Grid V) : Edit V → Option V × Grid V
  | insert c v => g.insert c v
  | remove c => g.remove c
  | clear => (none, g.clear)

/-- what a finite map answers: the value that the column had before -/
def onMap (m : ColumnFinmap V) : Edit V → Option V × ColumnFinmap V
  | insert c v => (m.lookup c, m.insert c v)
  | remove c => (m.lookup c, m.erase c)
  | clear => (none, ∅)

/-- edits one after the other, with all answers -/
def run {τ : Type} (perform : τ → Edit V → Option V × τ) (t : τ) : List (Edit V) → List (Option V) × τ
  | [] => ([], t)
  | e :: rest =>
    let (answers, t') := run perform (perform t e).2 rest
    ((perform t e).1 :: answers, t')

variable {g : Grid V} {m : ColumnFinmap V}

/-- an edit keeps look-ups in agreement -/
theorem get?_onGrid (h : ∀ c, g.get? c = m.lookup c) (e : Edit V) (c : Column) :
    (e.onGrid g).2.get? c = (e.onMap m).2.lookup c := by
  cases e with
  | insert d v =>
    show (g.insert d v).2.get? c = (m.insert d v).lookup c
    rw [get?_insert]
    split
    · rename_i hdc
      rw [← hdc, Finmap.lookup_insert]
    · rename_i hdc
      rw [Finmap.lookup_insert_of_ne m (Ne.symm hdc), h]
  | remove d =>
    show (g.remove d).2.get? c = (m.erase d).lookup c
    rw [get?_remove]
    split
    · rename_i hdc
      rw [← hdc, Finmap.lookup_erase]
    · rename_i hdc
      rw [Finmap.lookup_erase_ne (Ne.symm hdc), h]
  | clear =>
    show ({} : Grid V).get? c = (∅ : ColumnFinmap V).lookup c
    rw [get?_empty, Finmap.lookup_empty]

theorem answer_onGrid (h : ∀ c, g.get? c = m.lookup c) (e : Edit V) :
    (e.onGrid g).1 = (e.onMap m).1 := by
  cases e with
  | insert c v => exact h c
  | remove c => exact h c
  | clear => rfl

theorem run_onGrid (h : ∀ c, g.get? c = m.lookup c) (edits : List (Edit V)) :
    (run onGrid g edits).1 = (run onMap m edits).1 ∧
      ∀ c, (run onGrid g edits).2.get? c = (run onMap m edits).2.lookup c := by
  induction edits generalizing g m with
  | nil => exact ⟨rfl, h⟩
  | cons e rest ih =>
    obtain ⟨hanswers, hlookups⟩ := ih (get?_onGrid h e)
    exact ⟨congrArg₂ List.cons (answer_onGrid h e) hanswers, hlookups⟩

end Edit

/-! ## entries -/

/-- the columns of a grid with their values -/
def entries (g : Grid V) : List (Σ _ : Column, V) :=
  g.cells.toList.map fun e => ⟨Column.unpack e.1, e.2⟩

theorem keys_eq_entries (g : Grid V) : g.keys = g.entries.map Sigma.fst := by
  rw [keys, entries, ← ExtTreeMap.map_fst_toList_eq_keys, List.map_map, List.map_map]
  rfl

theorem values_eq_entries (g : Grid V) : g.values = g.entries.map Sigma.snd := by
  rw [values, entries, ExtTreeMap.foldr_eq_foldr_toList, List.map_map]
  induction g.cells.toList with
  | nil => rfl
  | cons e rest ih => rw [List.foldr_cons, ih, List.map_cons]; rfl

theorem size_eq_entries (g : Grid V) : g.size = g.entries.length := by
  rw [entries, List.length_map, ExtTreeMap.length_toList]
  rfl

theorem nodup_entries (g : Grid V) : g.entries.Nodup :=
  List.Nodup.of_map Sigma.fst (keys_eq_entries g ▸ g.nodup_keys)

theorem mem_entries {g : Grid V} {c : Column} {v : V} :
    (⟨c, v⟩ : Σ _ : Column, V) ∈ g.entries ↔ g.get? c = some v := by
  have hcell : (c.pack, v) ∈ g.cells.toList ↔ g.get? c = some v :=
    ExtTreeMap.mem_toList_iff_getElem?_eq_some
  rw [← hcell, entries, List.mem_map]
  constructor
  · rintro ⟨⟨key, w⟩, he, heq⟩
    cases heq
    rw [Column.pack_unpack]
    exact he
  · intro he
    exact ⟨_, he, by rw [Column.unpack_pack]⟩

/-- **The entries of a grid** are those of a finite map that it agrees with. -/
theorem entries_eq {g : Grid V} {m : ColumnFinmap V} (h : ∀ c, g.get? c = m.lookup c) :
    (g.entries : Multiset (Σ _ : Column, V)) = m.entries := by
  refine (Multiset.Nodup.ext (Multiset.coe_nodup.mpr g.nodup_entries) m.nodup_entries).mpr ?_
  rintro ⟨c, v⟩
  rw [Multiset.mem_coe, mem_entries, h c, Finmap.lookup_eq_some_iff]

/-! ## whatever is asked -/

/-- a grid answers like a finite map, whatever it is asked -/
structure Charts (g : Grid V) (m : ColumnFinmap V) : Prop where
  get? : ∀ c, g.get? c = m.lookup c
  contains : ∀ c, g.contains c = true ↔ c ∈ m
  size : g.size = m.keys.card
  isEmpty : g.isEmpty = true ↔ m = ∅
  /-- the values in any order, one for each column -/
  values : (g.values : Multiset V) = m.entries.map Sigma.snd
  /-- the columns in any order, each once -/
  keys : (g.keys : Multiset Column) = m.keys.val
  nodup : g.keys.Nodup

theorem charts_of_get? {g : Grid V} {m : ColumnFinmap V} (h : ∀ c, g.get? c = m.lookup c) :
    g.Charts m := by
  have hentries := entries_eq h
  have hsize : g.size = m.keys.card := by
    rw [size_eq_entries, ← Multiset.coe_card, hentries]
    exact (Multiset.card_map Sigma.fst m.entries).symm
  refine ⟨h, fun c => ?_, hsize, ?_, ?_, ?_, g.nodup_keys⟩
  · rw [contains_eq, h c, Finmap.lookup_isSome]
  · rw [isEmpty, ExtTreeMap.isEmpty_eq_size_beq_zero, beq_iff_eq]
    show g.size = 0 ↔ _
    rw [hsize, Finset.card_eq_zero]
    constructor
    · intro hnone
      refine Finmap.ext_lookup fun c => ?_
      rw [Finmap.lookup_empty, Finmap.lookup_eq_none, ← Finmap.mem_keys, hnone]
      exact Finset.notMem_empty c
    · rintro rfl
      exact Finmap.keys_empty
  · rw [values_eq_entries, ← hentries, Multiset.map_coe]
  · rw [keys_eq_entries, ← Multiset.map_coe, hentries]
    rfl

/-- **A new grid is a finite map, whatever is done to it.**  It answers every edit like the map, and
afterwards every question.  Packing is what could go wrong: two columns with one packed form would be
one entry, and a column that is not read back from it would be listed as another. -/
theorem charts_run (V : Type) :
    (∀ edits : List (Edit V),
      (Edit.run Edit.onGrid {} edits).1 = (Edit.run Edit.onMap ∅ edits).1 ∧
      (Edit.run Edit.onGrid {} edits).2.Charts (Edit.run Edit.onMap ∅ edits).2) ∧
    Function.Injective Column.pack ∧ ∀ c : Column, Column.unpack c.pack = c := by
  refine ⟨fun edits => ?_, fun c d => Column.pack_inj.mp, Column.unpack_pack⟩
  have hnew : ∀ c, ({} : Grid V).get? c = (∅ : ColumnFinmap V).lookup c := fun c => by
    rw [get?_empty, Finmap.lookup_empty]
  obtain ⟨hanswers, hlookups⟩ := Edit.run_onGrid hnew edits
  exact ⟨hanswers, charts_of_get? hlookups⟩

end Grid
end Precinct
