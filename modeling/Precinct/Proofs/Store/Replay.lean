import Mathlib
import Precinct.Proofs.Store.Exact

/-!
# A ledger replays what was done since the store was saved

* `RegionMap.Keyed`    every region is kept under its own name;
* `RegionMap.view_foldl`  going through a keyed map does to one name what the region of that name
                       does, whatever the order;
* `Ledger.Proper`      a ledger that says one thing of each name at most;
* `Ledger.outcome`     what a ledger makes of the saved region of a name: `getElem?_replay` for a
                       whole replay, `outcome_merge` for a newer ledger folded into an older one;
* `Table.Tracks`       the present regions are what the ledgers that were taken and not saved, the
                       oldest first, and then the present one make of the saved regions.

Merging is what makes giving a ledger back right: `outcome_merge` says that the merged ledger acts
like the two of them one after the other.  So a ledger may be given back only while it is the latest
of those taken, and that is why the ledgers not saved form a stack.
-/

namespace Precinct
open Std (ExtTreeMap)

/-! ## maps of regions -/

namespace RegionMap
variable {m : RegionMap} {id : String}

/-- every region is kept under its own name -/
def Keyed (m : RegionMap) : Prop := ∀ (id : String) (r : Region), m[id]? = some r → r.id = id

theorem keyed_empty : Keyed ∅ := by
  intro id r h
  rw [ExtTreeMap.getElem?_empty] at h
  cases h

theorem getElem?_insert_id (m : RegionMap) (r : Region) (id : String) :
    (m.insert r.id r)[id]? = if r.id = id then some r else m[id]? := by
  rw [ExtTreeMap.getElem?_insert]
  simp only [Std.LawfulEqCmp.compare_eq_iff_eq]

theorem getElem?_erase_id (m : RegionMap) (r : Region) (id : String) :
    (m.erase r.id)[id]? = if r.id = id then none else m[id]? := by
  rw [ExtTreeMap.getElem?_erase]
  simp only [Std.LawfulEqCmp.compare_eq_iff_eq]

theorem Keyed.insert (h : Keyed m) (r : Region) : Keyed (m.insert r.id r) := by
  intro id r' hr
  rw [getElem?_insert_id] at hr
  split at hr
  · cases hr
    assumption
  · exact h id r' hr

theorem Keyed.erase (h : Keyed m) (id : String) : Keyed (m.erase id) := by
  intro id' r hr
  rw [ExtTreeMap.getElem?_erase] at hr
  split at hr
  · cases hr
  · exact h id' r hr

/-- a fold over a map is a fold over its regions -/
theorem foldl_eq {β : Type} (m : RegionMap) (f : β → Region → β) (x : β) :
    m.foldl (fun x _ r => f x r) x = m.regions.foldl f x := by
  rw [ExtTreeMap.foldl_eq_foldl_toList, regions_eq, List.foldl_map]

theorem mem_regions (h : Keyed m) {r : Region} : r ∈ m.regions ↔ m[r.id]? = some r := by
  rw [regions_eq, List.mem_map]
  constructor
  · rintro ⟨⟨id, r'⟩, hmem, rfl⟩
    have hget := ExtTreeMap.mem_toList_iff_getElem?_eq_some.mp hmem
    rw [h id r' hget]
    exact hget
  · intro hget
    exact ⟨(r.id, r), ExtTreeMap.mem_toList_iff_getElem?_eq_some.mpr hget, rfl⟩

/-- going through regions of different names does to one name what the region of that name does, if
there is one -/
theorem view_foldl_of_named {β γ : Type} (id : String) {f : β → Region → β} (view : β → γ)
    (g : Region → γ) (hf : ∀ x r, view (f x r) = if r.id = id then g r else view x)
    (regions : List Region) (x : β) (hnamed : Region.Named regions) :
    (∀ r ∈ regions, r.id ≠ id) ∧ view (regions.foldl f x) = view x ∨
      ∃ r ∈ regions, r.id = id ∧ view (regions.foldl f x) = g r := by
  induction regions generalizing x with
  | nil => exact Or.inl ⟨fun r hr => absurd hr List.not_mem_nil, rfl⟩
  | cons r rest ih =>
    obtain ⟨hr, hrest⟩ := List.nodup_cons.mp hnamed
    rw [List.foldl_cons]
    rcases ih (f x r) hrest with ⟨hne, hview⟩ | ⟨r', hmem, hid, hview⟩
    · by_cases hid : r.id = id
      · refine Or.inr ⟨r, List.mem_cons_self, hid, ?_⟩
        rw [hview, hf, if_pos hid]
      · refine Or.inl ⟨?_, ?_⟩
        · intro r' hr'
          rcases List.mem_cons.mp hr' with rfl | hr'
          · exact hid
          · exact hne r' hr'
        · rw [hview, hf, if_neg hid]
    · exact Or.inr ⟨r', List.mem_cons_of_mem r hmem, hid, hview⟩

/-- **What a fold does to one name** is what it does with the region of that name. -/
theorem view_foldl {β γ : Type} (h : Keyed m) (id : String) {f : β → Region → β} (view : β → γ)
    (g : Region → γ) (hf : ∀ x r, view (f x r) = if r.id = id then g r else view x) (x : β) :
    view (m.foldl (fun x _ r => f x r) x) = (m[id]?).elim (view x) g := by
  rw [foldl_eq]
  rcases view_foldl_of_named id view g hf m.regions x (Table.Keyed.named (t := { contents := m }) h)
    with ⟨hne, hview⟩ | ⟨r, hmem, rfl, hview⟩
  · have hnone : m[id]? = none := by
      by_contra hsome
      obtain ⟨r, hr⟩ := Option.ne_none_iff_exists'.mp hsome
      have hid := h id r hr
      subst hid
      exact hne r ((mem_regions h).mpr hr) rfl
    rw [hview, hnone]
    rfl
  · rw [hview, (mem_regions h).mp hmem]
    rfl

theorem foldl_induct {β : Type} {P : β → Prop} {f : β → Region → β} (hf : ∀ x r, P x → P (f x r))
    (m : RegionMap) {x : β} (h : P x) : P (m.foldl (fun x _ r => f x r) x) := by
  rw [foldl_eq]
  exact List.foldlRecOn _ f h fun y hy r _ => hf y r hy

end RegionMap

/-! ## ledgers -/

namespace Ledger
variable {l older newer : Ledger} {id : String}

/-- what holds of every ledger that is kept by recording -/
structure Proper (l : Ledger) : Prop where
  changed : l.changed.Keyed
  removed : l.removed.Keyed
  /-- no name is both changed and removed -/
  apart : ∀ id : String, l.changed[id]? = none ∨ l.removed[id]? = none

/-- what a ledger makes of the saved region of a name, if there is one -/
def outcome (l : Ledger) (id : String) (saved : Option Region) : Option Region :=
  match l.changed[id]?, l.removed[id]? with
  | some r, _ => some r
  | none, some _ => none
  | none, none => saved

theorem proper_empty : Proper {} :=
  ⟨RegionMap.keyed_empty, RegionMap.keyed_empty, fun _ => Or.inl ExtTreeMap.getElem?_empty⟩

theorem outcome_empty (id : String) (saved : Option Region) :
    outcome {} id saved = saved := by
  have h : (∅ : RegionMap)[id]? = none := ExtTreeMap.getElem?_empty
  simp only [outcome, h]

theorem Proper.recordChange (h : l.Proper) (r : Region) : (l.recordChange r).Proper := by
  refine ⟨h.changed.insert r, h.removed.erase r.id, fun id => ?_⟩
  show (l.changed.insert r.id r)[id]? = none ∨ (l.removed.erase r.id)[id]? = none
  rw [RegionMap.getElem?_insert_id, RegionMap.getElem?_erase_id]
  split
  · exact Or.inr rfl
  · exact h.apart id

theorem Proper.recordRemoval (h : l.Proper) (r : Region) : (l.recordRemoval r).Proper := by
  refine ⟨h.changed.erase r.id, h.removed.insert r, fun id => ?_⟩
  show (l.changed.erase r.id)[id]? = none ∨ (l.removed.insert r.id r)[id]? = none
  rw [RegionMap.getElem?_insert_id, RegionMap.getElem?_erase_id]
  split
  · exact Or.inl rfl
  · exact h.apart id

theorem Proper.merge (h : older.Proper) (newer : Ledger) : (older.merge newer).Proper := by
  have hremoved := RegionMap.foldl_induct (P := Proper) (fun _ r hl => hl.recordRemoval r)
    newer.removed h
  exact RegionMap.foldl_induct (P := Proper) (fun _ r hl => hl.recordChange r) newer.changed hremoved

theorem outcome_recordChange (l : Ledger) (r : Region) (id : String) (saved : Option Region) :
    (l.recordChange r).outcome id saved = if r.id = id then some r else l.outcome id saved := by
  simp only [outcome, recordChange, RegionMap.getElem?_insert_id, RegionMap.getElem?_erase_id]
  by_cases hid : r.id = id
  · simp only [if_pos hid]
  · simp only [if_neg hid]

theorem outcome_recordRemoval (l : Ledger) (r : Region) (id : String) (saved : Option Region) :
    (l.recordRemoval r).outcome id saved = if r.id = id then none else l.outcome id saved := by
  simp only [outcome, recordRemoval, RegionMap.getElem?_insert_id, RegionMap.getElem?_erase_id]
  by_cases hid : r.id = id
  · simp only [if_pos hid]
  · simp only [if_neg hid]

/-- **A merged ledger acts like the older one and then the newer one.** -/
theorem outcome_merge (h : newer.Proper) (older : Ledger) (id : String) (saved : Option Region) :
    (older.merge newer).outcome id saved = newer.outcome id (older.outcome id saved) := by
  have hremoved := RegionMap.view_foldl h.removed id (fun l => l.outcome id saved) (fun _ => none)
    (fun l r => outcome_recordRemoval l r id saved) older
  have hchanged := RegionMap.view_foldl h.changed id (fun l => l.outcome id saved) some
    (fun l r => outcome_recordChange l r id saved)
    (newer.removed.foldl (fun l _ r => l.recordRemoval r) older)
  rw [merge, hchanged, hremoved, outcome.eq_def newer]
  cases newer.changed[id]? with
  | some r => rfl
  | none => cases newer.removed[id]? <;> rfl

/-- **Replaying a ledger** does to every name what the ledger says of it. -/
theorem getElem?_replay (h : l.Proper) (saved : RegionMap) (id : String) :
    (l.replay saved)[id]? = l.outcome id saved[id]? := by
  have hremoved := RegionMap.view_foldl h.removed id (fun m : RegionMap => m[id]?) (fun _ => none)
    (fun m r => RegionMap.getElem?_erase_id m r id) saved
  have hchanged := RegionMap.view_foldl h.changed id (fun m : RegionMap => m[id]?) some
    (fun m r => RegionMap.getElem?_insert_id m r id)
    (l.removed.foldl (fun m _ r => m.erase r.id) saved)
  rw [replay, hchanged, hremoved, outcome]
  cases l.changed[id]? with
  | some r => rfl
  | none => cases l.removed[id]? <;> rfl

end Ledger

/-! ## tables -/

namespace Table
variable {saved : RegionMap} {shelf : List Ledger} {t : Table}

/-- the regions of a name after ledgers have been saved, the latest of which comes first -/
def outcomes (shelf : List Ledger) (id : String) (saved : Option Region) : Option Region :=
  shelf.foldr (fun l r => l.outcome id r) saved

/-- the ledgers taken and not saved, and then the present one, lead from the saved regions to those
there are now -/
structure Tracks (saved : RegionMap) (shelf : List Ledger) (t : Table) : Prop where
  proper : t.ledger.Proper
  shelved : ∀ l ∈ shelf, l.Proper
  contents : ∀ id : String, t.contents[id]? = t.ledger.outcome id (outcomes shelf id saved[id]?)

theorem tracks_of_ledger_eq (h : t.ledger = {}) : t.Tracks t.contents [] := by
  refine ⟨h ▸ Ledger.proper_empty, fun l hl => absurd hl List.not_mem_nil, fun id => ?_⟩
  rw [h, Ledger.outcome_empty]
  rfl

theorem Tracks.insert (h : t.Tracks saved shelf) (r : Region) : (t.insert r).Tracks saved shelf := by
  refine ⟨h.proper.recordChange r, h.shelved, fun id => ?_⟩
  show (t.contents.insert r.id r)[id]? = (t.ledger.recordChange r).outcome id _
  rw [RegionMap.getElem?_insert_id, Ledger.outcome_recordChange, h.contents]

theorem Tracks.take {id : String} {r : Region} {t' : Table} (h : t.Tracks saved shelf)
    (hkeyed : t.Keyed) (ht : t.take id = some (r, t')) : t'.Tracks saved shelf := by
  unfold Table.take at ht
  split at ht
  · cases ht
  · rename_i hr
    cases ht
    have hid := hkeyed id r hr
    subst hid
    refine ⟨h.proper.recordRemoval r, h.shelved, fun id => ?_⟩
    show (t.contents.erase r.id)[id]? = (t.ledger.recordRemoval r).outcome id _
    rw [RegionMap.getElem?_erase_id, Ledger.outcome_recordRemoval, h.contents]

theorem Tracks.write (h : t.Tracks saved shelf) (hkeyed : t.Keyed) (w : Write) :
    (w.apply t).Tracks saved shelf := by
  refine (write_induct (P := fun t => t.Keyed ∧ t.Tracks saved shelf) ?_ ?_ w ⟨hkeyed, h⟩).2
  · exact fun t r ht => ⟨ht.1.insert r, ht.2.insert r⟩
  · exact fun t id r t' ht htake => ⟨ht.1.take htake, ht.2.take ht.1 htake⟩

/-- declaring everything unsaved records what is there -/
theorem Tracks.markAll (h : t.Tracks saved shelf) (hkeyed : t.Keyed) :
    (t.setDirty true).Tracks saved shelf := by
  have hproper : (t.setDirty true).ledger.Proper :=
    RegionMap.foldl_induct (P := Ledger.Proper) (fun _ r hl => hl.recordChange r) t.contents h.proper
  refine ⟨hproper, h.shelved, fun id => ?_⟩
  have hview := RegionMap.view_foldl (m := t.contents) hkeyed id
    (fun l : Ledger => l.outcome id (outcomes shelf id saved[id]?)) some
    (fun l r => Ledger.outcome_recordChange l r id _) t.ledger
  show t.contents[id]? = (t.contents.foldl (fun l _ r => l.recordChange r) t.ledger).outcome id _
  rw [hview, ← h.contents]
  cases t.contents[id]? <;> rfl

theorem Tracks.takeLedger (h : t.Tracks saved shelf) :
    t.takeLedger.2.Tracks saved (t.takeLedger.1 :: shelf) := by
  refine ⟨Ledger.proper_empty, fun l hl => ?_, fun id => ?_⟩
  · rcases List.mem_cons.mp hl with rfl | hl
    · exact h.proper
    · exact h.shelved l hl
  · show t.contents[id]? = Ledger.outcome {} id _
    rw [Ledger.outcome_empty, h.contents]
    rfl

theorem Tracks.restoreLedger {l : Ledger} (h : t.Tracks saved (l :: shelf)) :
    (t.restoreLedger l).Tracks saved shelf := by
  refine ⟨(h.shelved l List.mem_cons_self).merge _,
    fun l' hl => h.shelved l' (List.mem_cons_of_mem l hl), fun id => ?_⟩
  show t.contents[id]? = (l.merge t.ledger).outcome id _
  rw [Ledger.outcome_merge h.proper, h.contents]
  rfl

/-- **With no ledger kept back, the present one leads from the saved regions to those of now.** -/
theorem Tracks.replay (h : t.Tracks saved []) : t.ledger.replay saved = t.contents := by
  refine ExtTreeMap.ext_getElem? fun id => ?_
  rw [Ledger.getElem?_replay h.proper, h.contents]
  rfl

/-- a clean table has nothing recorded -/
def Honest (t : Table) : Prop := t.dirty = false → t.ledger = {}

theorem Honest.write (h : t.Honest) (w : Write) : (w.apply t).Honest := by
  refine write_induct (fun t r _ => nofun) (fun t id r t' _ ht => ?_) w h
  unfold Table.take at ht
  split at ht
  · cases ht
  · cases ht
    exact nofun

theorem honest_chore (t : Table) (c : Chore) : (c.apply t).Honest := by
  cases c with
  | setDirty dirty =>
    cases dirty with
    | false => exact fun _ => rfl
    | true => exact nofun
  | takeLedger => exact fun _ => rfl
  | restoreLedger l => exact nofun

end Table
end Precinct
