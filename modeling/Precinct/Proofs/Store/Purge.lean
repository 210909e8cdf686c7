import Mathlib
import Precinct.Proofs.Region.Made
import Precinct.Proofs.Store.Felling

/-!
# Visitors that remove what they are shown

* `Removal.Takes`, `Removal.leave`  which names go when the regions of some names are removed, and
                       what becomes of a region that stays;
* `Removal.Does`       both at once: a map before and after.  `Does.append` puts two removals
                       together, `Does.again` removes what is gone already;
* `Table.does_remove`  one removal from a table;
* `Purged`             what a visitor was shown, what it removed and what it left;
* `Removes.purged`     **whatever the order** in which the regions of a block are shown, the same
                       goes and the same stays;
* `RegionStore.PurgesAlike`  this, for a store: `ExactStore.purgesAlike`.

Removals do not commute step by step: what a cascade takes depends on what is left, and a release
rewrites parents that a later removal looks at.  What they come to is said by the map at first alone,
and by the names as a set.  So the invariant compares the present map with the first one, and the
order is gone.
-/

namespace Precinct
open Relation (ReflTransGen)

/-! ## what a removal does -/

namespace Removal

/-- the names that go when the regions of some names are removed -/
def Takes (m : RegionMap) (names : List String) (id : String) : Removal → Prop
  | release => id ∈ names
  | cascade => ∃ a ∈ names, ReflTransGen m.ChildOf a id

/-- what becomes of a region that stays -/
def leave (names : List String) (r : Region) : Removal → Region
  | release => r.orphaned names
  | cascade => r

/-- the regions of some names are removed from a map: which regions go, and what is left -/
structure Does (removal : Removal) (m : RegionMap) (names : List String) (removed : List Region)
    (m' : RegionMap) : Prop where
  removed : ∀ id, id ∈ removed.map Region.id ↔ removal.Takes m names id
  gone : ∀ id, removal.Takes m names id → m'[id]? = none
  stays : ∀ id, ¬removal.Takes m names id → m'[id]? = (m[id]?).map (removal.leave names)

variable {removal : Removal} {m m' m'' : RegionMap} {names names' : List String}
  {removed removed' : List Region}

theorem orphaned_nil (r : Region) : r.orphaned [] = r :=
  Region.orphaned_of_not_mem fun _ ha => absurd ha List.not_mem_nil

theorem orphaned_append (names names' : List String) (r : Region) :
    (r.orphaned names).orphaned names' = r.orphaned (names ++ names') := by
  by_cases h : ∃ a ∈ names, r.parent = some a
  · obtain ⟨a, ha, hparent⟩ := h
    rw [Region.orphaned_of_mem ha hparent, Region.orphaned_of_mem (List.mem_append_left _ ha) hparent]
    exact Region.orphaned_of_not_mem fun _ _ => nofun
  · rw [Region.orphaned_of_not_mem fun a ha hp => h ⟨a, ha, hp⟩]
    by_cases h' : ∃ a ∈ names', r.parent = some a
    · obtain ⟨a, ha, hparent⟩ := h'
      rw [Region.orphaned_of_mem ha hparent,
        Region.orphaned_of_mem (List.mem_append_right _ ha) hparent]
    · rw [Region.orphaned_of_not_mem fun a ha hp => h' ⟨a, ha, hp⟩,
        Region.orphaned_of_not_mem fun a ha hp => (List.mem_append.mp ha).elim
          (fun ha => h ⟨a, ha, hp⟩) fun ha => h' ⟨a, ha, hp⟩]

theorem leave_nil (removal : Removal) (r : Region) : removal.leave [] r = r := by
  cases removal with
  | release => exact orphaned_nil r
  | cascade => rfl

theorem leave_append (removal : Removal) (names names' : List String) (r : Region) :
    removal.leave names' (removal.leave names r) = removal.leave (names ++ names') r := by
  cases removal with
  | release => exact orphaned_append names names' r
  | cascade => rfl

/-- only the names count, not their order -/
theorem leave_congr (removal : Removal) (he : ∀ id, id ∈ names ↔ id ∈ names') :
    removal.leave names = removal.leave names' := by
  funext r
  cases removal with
  | release =>
    have hany : r.parent.any names.contains = r.parent.any names'.contains := by
      rw [Bool.eq_iff_iff, Region.parent_any_iff, Region.parent_any_iff]
      simp only [he]
    rw [leave, leave, Region.orphaned, Region.orphaned, hany]
  | cascade => rfl

/-- removing nothing does nothing -/
theorem does_nil (removal : Removal) (m : RegionMap) : removal.Does m [] [] m := by
  have hnone : ∀ id, ¬removal.Takes m [] id := by
    intro id h
    cases removal with
    | release => exact List.not_mem_nil h
    | cascade =>
      obtain ⟨a, ha, -⟩ := h
      exact List.not_mem_nil ha
  refine ⟨fun id => ⟨fun h => absurd h List.not_mem_nil, fun h => absurd h (hnone id)⟩,
    fun id h => absurd h (hnone id), fun id _ => ?_⟩
  cases m[id]? with
  | none => rfl
  | some r => rw [Option.map_some, leave_nil]

theorem Does.congr (h : removal.Does m names removed m') (he : ∀ id, id ∈ names ↔ id ∈ names') :
    removal.Does m names' removed m' := by
  have htakes : ∀ id, removal.Takes m names id ↔ removal.Takes m names' id := by
    intro id
    cases removal with
    | release => exact he id
    | cascade => simp only [Takes, he]
  refine ⟨fun id => (h.removed id).trans (htakes id), fun id hid => h.gone id ((htakes id).mpr hid),
    fun id hid => ?_⟩
  rw [← leave_congr removal he]
  exact h.stays id fun hc => hid ((htakes id).mp hc)

/-- what is left, told by the regions that went -/
theorem Does.left (h : removal.Does m names removed m') (id : String) :
    m'[id]? = if id ∈ removed.map Region.id then none
      else (m[id]?).map (removal.leave (removed.map Region.id)) := by
  have hleave : removal.leave (removed.map Region.id) = removal.leave names := by
    cases removal with
    | release => exact leave_congr .release h.removed
    | cascade => rfl
  rw [hleave]
  split
  · exact h.gone id ((h.removed id).mp ‹_›)
  · exact h.stays id fun hc => absurd ((h.removed id).mpr hc) ‹_›

/-- with the cascade nothing happens to those that stay -/
theorem Does.without (h : Does .cascade m names removed m') :
    m.Without (Takes m names · .cascade) m' := by
  refine ⟨h.gone, fun id hid => ?_⟩
  rw [h.stays id hid]
  cases m[id]? <;> rfl

/-- **What goes when more is removed**: as much as if all had been removed at once. -/
theorem Does.takes_append (h : removal.Does m names removed m') (id : String) :
    removal.Takes m (names ++ names') id ↔
      removal.Takes m names id ∨ removal.Takes m' names' id := by
  cases removal with
  | release => exact List.mem_append
  | cascade =>
    constructor
    · rintro ⟨a, ha, hreach⟩
      rcases List.mem_append.mp ha with ha | ha
      · exact Or.inl ⟨a, ha, hreach⟩
      · rcases h.without.reach_or_cut hreach with hreach' | ⟨b, ⟨c, hc, hcb⟩, hreach'⟩
        · exact Or.inr ⟨a, ha, hreach'⟩
        · exact Or.inl ⟨c, hc, hcb.trans (h.without.reach hreach')⟩
    · rintro (⟨a, ha, hreach⟩ | ⟨a, ha, hreach⟩)
      · exact ⟨a, List.mem_append_left _ ha, hreach⟩
      · exact ⟨a, List.mem_append_right _ ha, h.without.reach hreach⟩

theorem Does.append (h : removal.Does m names removed m') (h' : removal.Does m' names' removed' m'') :
    removal.Does m (names ++ names') (removed ++ removed') m'' := by
  refine ⟨fun id => ?_, fun id hid => ?_, fun id hid => ?_⟩
  · rw [List.map_append, List.mem_append, h.removed, h'.removed, h.takes_append]
  · by_cases hlater : removal.Takes m' names' id
    · exact h'.gone id hlater
    · rw [h'.stays id hlater, h.gone id (((h.takes_append id).mp hid).resolve_right hlater)]
      rfl
  · have hnot : ¬removal.Takes m names id ∧ ¬removal.Takes m' names' id :=
      not_or.mp fun hc => hid ((h.takes_append id).mpr hc)
    rw [h'.stays id hnot.2, h.stays id hnot.1, Option.map_map]
    congr 1
    funext r
    exact leave_append removal names names' r

/-- a name that is gone may be removed again -/
theorem Does.again (h : removal.Does m names removed m') {a : String}
    (ha : removal.Takes m names a) : removal.Does m (names ++ [a]) removed m' := by
  cases removal with
  | release =>
    refine h.congr fun id => ?_
    rw [List.mem_append, List.mem_singleton]
    refine ⟨Or.inl, fun hid => hid.elim (fun hin => hin) fun he => ?_⟩
    rw [he]
    exact ha
  | cascade =>
    have htakes : ∀ id, Takes m (names ++ [a]) id .cascade ↔ Takes m names id .cascade := by
      intro id
      constructor
      · rintro ⟨b, hb, hreach⟩
        rcases List.mem_append.mp hb with hb | hb
        · exact ⟨b, hb, hreach⟩
        · obtain ⟨c, hc, hca⟩ := ha
          rw [List.mem_singleton.mp hb] at hreach
          exact ⟨c, hc, hca.trans hreach⟩
      · rintro ⟨b, hb, hreach⟩
        exact ⟨b, List.mem_append_left _ hb, hreach⟩
    exact ⟨fun id => (h.removed id).trans (htakes id).symm, fun id hid => h.gone id ((htakes id).mp hid),
      fun id hid => h.stays id fun hc => hid ((htakes id).mpr hc)⟩

end Removal

/-! ## one removal -/

namespace Table
variable {t : Table} {removal : Removal} {a : String}

/-- **Removing a region that there is** does what is to be done. -/
theorem does_remove (h : t.Keyed) (lower : Text.lowerCase a = a) (ha : t.contents[a]? ≠ none) :
    removal.Does t.contents [a] (t.remove a removal).1 (t.remove a removal).2.contents := by
  obtain ⟨r, hr⟩ := Option.ne_none_iff_exists'.mp ha
  obtain rfl := h a r hr
  cases removal with
  | release =>
    obtain ⟨taken, ht⟩ := exists_take hr
    obtain ⟨hlost, -⟩ := lost_take h ht
    rw [remove_release (lower.symm ▸ ht), lower]
    refine ⟨fun id => Iff.rfl, fun id hc => ?_, fun id hc => ?_⟩
    · rw [getElem?_release hlost.keyed, hlost.without.lost id hc]
      rfl
    · rw [getElem?_release hlost.keyed, hlost.without.kept id hc]
      rfl
  | cascade =>
    obtain ⟨hfelled, -⟩ := felled_remove h (lower.symm ▸ hr)
    have htakes : ∀ id, id ∈ (t.remove r.id .cascade).1.map Region.id ↔
        Removal.Takes t.contents [r.id] id .cascade := by
      intro id
      rw [hfelled.mem_names h, Removal.Takes]
      simp only [List.mem_singleton, exists_eq_left]
    refine ⟨htakes, fun id hc => ?_, fun id hc => ?_⟩
    · rw [hfelled.contents, if_pos ((htakes id).mpr hc)]
    · rw [hfelled.contents, if_neg fun hm => hc ((htakes id).mp hm)]
      cases t.contents[id]? <;> rfl

theorem keyed_remove (h : t.Keyed) (id : String) (removal : Removal) :
    (t.remove id removal).2.Keyed := h.write (.remove id removal)

end Table

/-! ## visitors -/

section
variable {τ : Type}

/-- a visitor that also notes what it is shown -/
def noting (visitor : Region → τ → Bool × τ) (r : Region) (x : List Region × τ) :
    Bool × List Region × τ :=
  ((visitor r x.2).1, x.1 ++ [r], (visitor r x.2).2)

/-- what a visitor was shown, what it removed and what it left, having removed the regions of a map
that hold a block -/
structure Purged (removal : Removal) (m : RegionMap) (p : Block) (seen removed : List Region)
    (m' : RegionMap) : Prop where
  /-- it was shown the regions that held the block at first -/
  shown : seen.Perm (m.regions.filter (·.contains p))
  /-- each of them once -/
  once : seen.Nodup
  does : removal.Does m ((m.regions.filter (·.contains p)).map Region.id) removed m'

/-- a visitor that removes what it is shown from a table, unless something breaks -/
def Removes (removal : Removal) (table : τ → Table) (removed : τ → List Region) (Broken : τ → Prop)
    (visitor : Region → τ → Bool × τ) : Prop :=
  ∀ r x, Broken (visitor r x).2 ∧ (visitor r x).1 = false ∨
    (visitor r x).1 = true ∧ ∃ t : Table, t.contents = (table x).contents ∧
      table (visitor r x).2 = (t.remove r.id removal).2 ∧
      removed (visitor r x).2 = removed x ++ (t.remove r.id removal).1

variable {removal : Removal} {table : τ → Table} {removed : τ → List Region} {Broken : τ → Prop}
  {visitor : Region → τ → Bool × τ}

/-- one region after the other is removed, also those that an earlier removal took -/
theorem Removes.visits (h : Removes removal table removed Broken visitor) {m : RegionMap}
    (shown : List Region) (hshown : ∀ r ∈ shown, r.Made ∧ m[r.id]? ≠ none) (seen : List Region)
    (names : List String) (x : τ) (hkeyed : (table x).Keyed)
    (hdoes : removal.Does m names (removed x) (table x).contents) :
    Broken (visitEach visitor shown x) ∨
      (visitEach (noting visitor) shown (seen, x)).1 = seen ++ shown ∧
      removal.Does m (names ++ shown.map Region.id) (removed (visitEach visitor shown x))
        (table (visitEach visitor shown x)).contents := by
  induction shown generalizing seen names x with
  | nil =>
    rw [List.map_nil, List.append_nil, List.append_nil]
    exact Or.inr ⟨rfl, hdoes⟩
  | cons r rest ih =>
    obtain ⟨hmade, hthere⟩ := hshown r List.mem_cons_self
    have hv := h r x
    rw [visitEach, visitEach, noting]
    cases hy : visitor r x with
    | mk goes y =>
      rw [hy] at hv
      rcases hv with ⟨hbroken, hstops⟩ | ⟨hgoes, t, ht, htable, hremoved⟩
      · subst hstops
        exact Or.inl hbroken
      · subst hgoes
        dsimp only at htable hremoved ⊢
        rw [← ht] at hdoes
        have htkeyed : t.Keyed := fun id q hq => hkeyed id q (ht ▸ hq)
        have hnext : removal.Does m (names ++ [r.id]) (removed y) (table y).contents := by
          rw [htable, hremoved]
          by_cases hgone : t.contents[r.id]? = none
          · rw [Table.remove_of_none (hmade.lowerCase_id.symm ▸ hgone), List.append_nil]
            refine hdoes.again ?_
            by_contra hnot
            rw [hdoes.stays r.id hnot, Option.map_eq_none_iff] at hgone
            exact hthere hgone
          · exact hdoes.append (Table.does_remove htkeyed hmade.lowerCase_id hgone)
        have hrest := ih (fun q hq => hshown q (List.mem_cons_of_mem r hq)) (seen ++ [r]) _ y
          (htable ▸ Table.keyed_remove htkeyed _ _) hnext
        rw [List.append_assoc, List.append_assoc] at hrest
        exact hrest

/-- **Whatever the order** in which the regions of a block are shown, the same is removed. -/
theorem Removes.purged (h : Removes removal table removed Broken visitor) {x : τ}
    (hkeyed : (table x).Keyed) (hmade : ∀ r ∈ (table x).contents.regions, r.Made)
    (hnone : removed x = []) {p : Block} {shown : List Region}
    (hshown : shown.Perm ((table x).contents.regions.filter (·.contains p))) :
    Broken (visitEach visitor shown x) ∨
      Purged removal (table x).contents p (visitEach (noting visitor) shown ([], x)).1
        (removed (visitEach visitor shown x)) (table (visitEach visitor shown x)).contents := by
  have hthere : ∀ r ∈ shown, r.Made ∧ (table x).contents[r.id]? ≠ none := by
    intro r hr
    have hmem := List.mem_of_mem_filter (hshown.mem_iff.mp hr)
    refine ⟨hmade r hmem, ?_⟩
    rw [(RegionMap.mem_regions hkeyed).mp hmem]
    exact nofun
  have hnamed : Region.Named ((table x).contents.regions.filter (·.contains p)) :=
    hkeyed.named.filter _
  rcases h.visits shown hthere [] [] x hkeyed (hnone ▸ Removal.does_nil removal _) with
    hbroken | ⟨hseen, hdoes⟩
  · exact Or.inl hbroken
  · refine Or.inr ⟨?_, ?_, hdoes.congr fun id => (hshown.map Region.id).mem_iff⟩
    · rw [hseen]
      exact hshown
    · rw [hseen]
      exact hshown.nodup_iff.mpr hnamed.of_map

end

/-! ## the stores -/

namespace RegionStore
variable {σ τ : Type} [RegionStore σ]

/-- a visitor is shown the regions that hold a block -/
def visitAt (s : σ) (p : Block) (visitor : Region → τ → Bool × τ) (begin : σ → τ) : τ :=
  visitEach visitor (containing s p).1 (begin (containing s p).2)

/-- in any order, and in its own, a store is purged alike -/
structure PurgesAlike [Tabled σ] (s : σ) : Prop where
  anyOrder : ∀ (p : Block) (removal : Removal) (shown : List Region),
    shown.Perm ((values s).filter (·.contains p)) →
      Purged removal (Tabled.table s).contents p
        (visitEach (noting (Purge.visit removal)) shown ([], { store := s })).1
        (visitEach (Purge.visit removal) shown { store := s }).removed
        (Tabled.table (visitEach (Purge.visit removal) shown { store := s }).store).contents
  asked : ∀ (p : Block) (removal : Removal),
    Purged removal (Tabled.table s).contents p
      (visitAt s p (noting (Purge.visit removal)) fun s => ([], { store := s })).1
      (purgeContaining s p removal).removed
      (Tabled.table (purgeContaining s p removal).store).contents

end RegionStore

section
variable {σ : Type} [RegionStore σ] [Tabled σ] [TabledRemoval σ]

theorem RegionStore.removes_visit (removal : Removal) :
    Removes removal (fun q : Purge σ => Tabled.table q.store) Purge.removed (fun _ => False)
      (Purge.visit removal) := by
  intro r q
  refine Or.inr ⟨rfl, Tabled.table q.store, rfl, ?_, ?_⟩
  · exact Tabled.table_write q.store (.remove r.id removal)
  · exact congrArg (q.removed ++ ·) (TabledRemoval.removed_eq q.store r.id removal)

/-- **A store is purged alike in any order.** -/
theorem ExactStore.purgesAlike [ExactStore σ] {s : σ} (h : ExactStore.Sound s)
    (hkeyed : (Tabled.table s).Keyed) (hmade : ∀ r ∈ RegionStore.values s, r.Made) :
    RegionStore.PurgesAlike s := by
  have hany : ∀ (s' : σ) (p : Block) (removal : Removal) (shown : List Region),
      Tabled.table s' = Tabled.table s → shown.Perm ((RegionStore.values s).filter (·.contains p)) →
      Purged removal (Tabled.table s).contents p
        (visitEach (noting (RegionStore.Purge.visit removal)) shown ([], { store := s' })).1
        (visitEach (RegionStore.Purge.visit removal) shown { store := s' }).removed
        (Tabled.table
          (visitEach (RegionStore.Purge.visit removal) shown { store := s' }).store).contents := by
    intro s' p removal shown htable hshown
    rw [Tabled.values_eq] at hmade hshown
    rw [← htable] at hkeyed hmade hshown ⊢
    exact ((RegionStore.removes_visit removal).purged (x := { store := s' }) hkeyed hmade rfl
      hshown).resolve_left fun hbroken => hbroken
  refine ⟨fun p removal shown hshown => hany s p removal shown rfl hshown, fun p removal => ?_⟩
  exact hany _ p removal _ (Tabled.table_containing s p) (ExactStore.containing_perm h p)

end

/-! ## a region and its child -/

theorem Region.made_hourglass : hourglass.Made := by
  have h : Region.polygon "Hourglass" [⟨-8, -9⟩, ⟨8, 9⟩, ⟨-8, 9⟩, ⟨8, -9⟩] 4 0 = .ok hourglass := by
    decide +kernel
  exact .polygon h

theorem Region.made_bar : bar.Made := by
  have h : Region.polygon "bar" [⟨-20, -1⟩, ⟨20, -1⟩, ⟨20, 2⟩, ⟨-20, 2⟩] 0 4 = .ok bar := by
    decide +kernel
  exact .polygon h

/-- a region and its child, which overlap -/
def Region.family : List Region := [bar, hourglass.withParent "bar"]

theorem Region.made_family : ∀ r ∈ family, r.Made := by
  intro r hr
  rcases List.mem_pair.mp hr with rfl | rfl
  · exact made_bar
  · exact made_hourglass.withParent "bar"

end Precinct
