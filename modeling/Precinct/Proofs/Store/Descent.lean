import Mathlib
import Precinct.Proofs.Store.Replay

/-!
# Parents, children and what a removal takes

* `RegionMap.ChildOf`  a region has another one, by name, for its parent;
* `RegionMap.Without.reach_or_cut`  a chain of children either survives when some regions are taken
                       out, or it goes on from one of those;
* `Table.Lost`         a table is another one without some regions: `lost_take` and `lost_takeAll`
                       for regions taken out;
* `Table.mem_childrenOf`  the children that a table lists are those that there are;
* `Table.view_putBack`  what children put back without their parent change of one name;
* `Table.getElem?_release`  the children of a removed region are put back without their parent, and
                       nothing else changes.
-/

namespace Precinct
open Relation (ReflTransGen)

/-! ## parents and children -/

namespace RegionMap
variable {m m' : RegionMap} {a b : String}

/-- the region of the second name has the first name for its parent -/
def ChildOf (m : RegionMap) (a b : String) : Prop :=
  ∃ r : Region, m[b]? = some r ∧ r.parent = some a

/-- a map is another one without the regions of some names -/
structure Without (m : RegionMap) (gone : String → Prop) (m' : RegionMap) : Prop where
  lost : ∀ id : String, gone id → m'[id]? = none
  kept : ∀ id : String, ¬gone id → m'[id]? = m[id]?

theorem Without.of_some {gone : String → Prop} (h : m.Without gone m') {r : Region}
    (hr : m'[a]? = some r) : m[a]? = some r ∧ ¬gone a := by
  have ha : ¬gone a := fun ha => by
    rw [h.lost a ha] at hr
    cases hr
  exact ⟨h.kept a ha ▸ hr, ha⟩

theorem Without.childOf {gone : String → Prop} (h : m.Without gone m') :
    m'.ChildOf a b ↔ m.ChildOf a b ∧ ¬gone b := by
  constructor
  · rintro ⟨r, hr, hparent⟩
    obtain ⟨hr', hb⟩ := h.of_some hr
    exact ⟨⟨r, hr', hparent⟩, hb⟩
  · rintro ⟨⟨r, hr, hparent⟩, hb⟩
    exact ⟨r, (h.kept b hb).trans hr, hparent⟩

/-- **A chain of children** is one in the smaller map too, or goes on from a region that is gone. -/
theorem Without.reach_or_cut {gone : String → Prop} (h : m.Without gone m')
    (hreach : ReflTransGen m.ChildOf a b) : ReflTransGen m'.ChildOf a b ∨
      ∃ c, gone c ∧ ReflTransGen m'.ChildOf c b := by
  induction hreach with
  | refl => exact Or.inl .refl
  | @tail b d _ hchild ih =>
    by_cases hd : gone d
    · exact Or.inr ⟨d, hd, .refl⟩
    have hstep := h.childOf.mpr ⟨hchild, hd⟩
    rcases ih with hb | ⟨c, hc, hb⟩
    · exact Or.inl (hb.tail hstep)
    · exact Or.inr ⟨c, hc, hb.tail hstep⟩

theorem Without.reach {gone : String → Prop} (h : m.Without gone m')
    (hreach : ReflTransGen m'.ChildOf a b) : ReflTransGen m.ChildOf a b :=
  ReflTransGen.mono (fun _ _ hchild => (h.childOf.mp hchild).1) _ _ hreach

end RegionMap

/-- a region without its parent, if that is one of some names -/
def Region.orphaned (names : List String) (r : Region) : Region :=
  if r.parent.any names.contains then r.withoutParent else r

namespace Region
variable {names : List String} {r : Region}

theorem parent_any_iff : r.parent.any names.contains = true ↔ ∃ a ∈ names, r.parent = some a := by
  cases r.parent with
  | none => exact ⟨nofun, fun ⟨_, _, h⟩ => nomatch h⟩
  | some a => simp [eq_comm]

theorem orphaned_of_mem {a : String} (ha : a ∈ names) (h : r.parent = some a) :
    r.orphaned names = r.withoutParent :=
  if_pos (parent_any_iff.mpr ⟨a, ha, h⟩)

theorem orphaned_of_not_mem (h : ∀ a ∈ names, r.parent ≠ some a) : r.orphaned names = r :=
  if_neg fun hany => by
    obtain ⟨a, ha, hparent⟩ := parent_any_iff.mp hany
    exact h a ha hparent

end Region

/-! ## taking regions out -/

namespace Table
variable {t t' t'' : Table} {l l' : List Region}

/-- a table is another one without some regions, which are listed once each -/
structure Lost (t : Table) (l : List Region) (t' : Table) : Prop where
  named : Region.Named l
  present : ∀ r ∈ l, t.contents[r.id]? = some r
  without : t.contents.Without (· ∈ l.map Region.id) t'.contents
  keyed : t'.Keyed

theorem lost_nil (h : t.Keyed) : t.Lost [] t :=
  ⟨List.nodup_nil, fun _ hr => absurd hr List.not_mem_nil,
    ⟨fun _ hid => absurd hid List.not_mem_nil, fun _ _ => rfl⟩, h⟩

theorem Lost.trans (h : t.Lost l t') (h' : t'.Lost l' t'') : t.Lost (l ++ l') t'' := by
  have hstill : ∀ r ∈ l', t.contents[r.id]? = some r ∧ r.id ∉ l.map Region.id :=
    fun r hr => h.without.of_some (h'.present r hr)
  have hmem : ∀ {id}, id ∈ (l ++ l').map Region.id ↔ id ∈ l.map Region.id ∨ id ∈ l'.map Region.id :=
    by simp only [List.map_append, List.mem_append, implies_true]
  refine ⟨?_, fun r hr => ?_, ⟨fun id hid => ?_, fun id hid => ?_⟩, h'.keyed⟩
  · rw [Region.Named, List.map_append]
    refine h.named.append h'.named ?_
    intro id hid hid'
    obtain ⟨r, hr, rfl⟩ := List.mem_map.mp hid'
    exact (hstill r hr).2 hid
  · rcases List.mem_append.mp hr with hr | hr
    · exact h.present r hr
    · exact (hstill r hr).1
  · by_cases hlater : id ∈ l'.map Region.id
    · exact h'.without.lost id hlater
    · rw [h'.without.kept id hlater]
      exact h.without.lost id ((hmem.mp hid).resolve_right hlater)
  · rw [h'.without.kept id fun hl => hid (hmem.mpr (Or.inr hl)),
      h.without.kept id fun hl => hid (hmem.mpr (Or.inl hl))]

theorem take_eq_none_iff {id : String} : t.take id = none ↔ t.contents[id]? = none := by
  unfold Table.take
  split <;> simp_all

theorem exists_take {id : String} {r : Region} (hr : t.contents[id]? = some r) :
    ∃ taken, t.take id = some (r, taken) := by
  rw [take, hr]
  exact ⟨_, rfl⟩

theorem lost_take {id : String} {r : Region} (h : t.Keyed) (ht : t.take id = some (r, t')) :
    t.Lost [r] t' ∧ r.id = id := by
  have hkeyed := h.take ht
  unfold Table.take at ht
  split at ht
  · cases ht
  · rename_i hr
    cases ht
    have hid := h id r hr
    subst hid
    have herase := RegionMap.getElem?_erase_id t.contents r
    refine ⟨⟨List.nodup_singleton _, fun r' hr' => ?_, ⟨fun id he => ?_, fun id he => ?_⟩, hkeyed⟩,
      rfl⟩
    · rw [List.mem_singleton.mp hr']
      exact hr
    · exact (herase id).trans (if_pos (List.mem_singleton.mp he).symm)
    · exact (herase id).trans (if_neg fun hc => he (List.mem_singleton.mpr hc.symm))

/-- taking several names out takes those that there are -/
theorem lost_takeAll (h : t.Keyed) (ids : List String) :
    t.Lost (t.takeAll ids).1 (t.takeAll ids).2 ∧
      ∀ id, id ∈ (t.takeAll ids).1.map Region.id ↔ id ∈ ids ∧ t.contents[id]? ≠ none := by
  induction ids generalizing t with
  | nil => exact ⟨lost_nil h, fun id => by simp [takeAll]⟩
  | cons a ids ih =>
    rw [takeAll]
    cases ht : t.take a with
    | none =>
      obtain ⟨hlost, hmem⟩ := ih h
      have hnone := take_eq_none_iff.mp ht
      refine ⟨hlost, fun id => (hmem id).trans ?_⟩
      rw [List.mem_cons]
      refine ⟨fun hid => ⟨Or.inr hid.1, hid.2⟩, fun hid => ⟨hid.1.resolve_left ?_, hid.2⟩⟩
      rintro rfl
      exact hid.2 hnone
    | some e =>
      obtain ⟨hlost, hid⟩ := lost_take h ht
      obtain ⟨hlost', hmem⟩ := ih hlost.keyed
      have hfound : t.contents[a]? ≠ none := fun hnone => by
        rw [take_eq_none_iff.mpr hnone] at ht
        cases ht
      refine ⟨hlost.trans hlost', fun id => ?_⟩
      show id ∈ (e.1 :: (e.2.takeAll ids).1).map Region.id ↔ _
      rw [List.map_cons, List.mem_cons, List.mem_cons, hmem, hid]
      by_cases ha : id = a
      · subst ha
        exact ⟨fun _ => ⟨Or.inl rfl, hfound⟩, fun _ => Or.inl rfl⟩
      · have hkept := hlost.without.kept id (by simpa [hid] using ha)
        rw [hkept]
        simp only [ha, false_or]

/-! ## children -/

theorem named_childrenOf (h : t.Keyed) (a : String) : Region.Named (t.childrenOf a) := by
  rw [childrenOf, RegionMap.select_eq]
  exact h.named.filter _

theorem region_mem_childrenOf (h : t.Keyed) {a : String} {r : Region} :
    r ∈ t.childrenOf a ↔ t.contents[r.id]? = some r ∧ r.parent = some a := by
  rw [childrenOf, RegionMap.select_eq, List.mem_filter, RegionMap.mem_regions h, beq_iff_eq]

theorem mem_childrenOf (h : t.Keyed) {a b : String} :
    b ∈ (t.childrenOf a).map Region.id ↔ t.contents.ChildOf a b := by
  rw [List.mem_map]
  constructor
  · rintro ⟨r, hr, rfl⟩
    exact ⟨r, (region_mem_childrenOf h).mp hr⟩
  · rintro ⟨r, hr, hparent⟩
    have hid := h b r hr
    subst hid
    exact ⟨r, (region_mem_childrenOf h).mpr ⟨hr, hparent⟩, rfl⟩

/-- put regions back without their parent, one after the other -/
def putBack (t : Table) (children : List Region) : Table :=
  children.foldl (fun t child => t.insert child.withoutParent) t

theorem release_eq (t : Table) (a : String) : t.release a = t.putBack (t.childrenOf a) := rfl

/-- **What a table shows of one name** after the children of another one were put back, in whatever order
they are listed: of a child what putting it in without its parent shows, else what it showed before. -/
theorem view_putBack {γ : Type} (h : t.Keyed) {a : String} {children : List Region}
    (listed : children.Perm (t.childrenOf a)) (id : String) (view : Table → γ) (g : Region → γ)
    (hinsert : ∀ t r, view (insert t r) = if r.id = id then g r else view t) :
    (∀ r : Region, t.contents[id]? = some r → r.parent = some a →
      view (t.putBack children) = g r.withoutParent) ∧
    (¬t.contents.ChildOf a id → view (t.putBack children) = view t) := by
  have hnamed : Region.Named children :=
    (listed.map Region.id).nodup_iff.mpr (named_childrenOf h a)
  have hchild : ∀ {r}, r ∈ children ↔ t.contents[r.id]? = some r ∧ r.parent = some a :=
    listed.mem_iff.trans (region_mem_childrenOf h)
  rcases RegionMap.view_foldl_of_named id view (fun r => g r.withoutParent)
    (fun t r => hinsert t r.withoutParent) children t hnamed with ⟨hne, hview⟩ | ⟨q, hq, rfl, hview⟩
  · refine ⟨fun r hr hparent => ?_, fun _ => hview⟩
    have hid := h id r hr
    subst hid
    exact absurd rfl (hne r (hchild.mpr ⟨hr, hparent⟩))
  · obtain ⟨hget, hparent⟩ := hchild.mp hq
    refine ⟨fun r hr _ => ?_, fun hno => absurd ⟨q, hget, hparent⟩ hno⟩
    rw [hget] at hr
    cases hr
    exact hview

theorem getElem?_insert (t : Table) (r : Region) (id : String) :
    (t.insert r).contents[id]? = if r.id = id then some r else t.contents[id]? :=
  RegionMap.getElem?_insert_id t.contents r id

/-- **The children of a removed region** are put back without their parent; nothing else changes. -/
theorem getElem?_release (h : t.Keyed) (a id : String) :
    (t.release a).contents[id]? = (t.contents[id]?).map (Region.orphaned [a]) := by
  obtain ⟨hchild, hother⟩ := view_putBack h (.refl (t.childrenOf a)) id
    (fun t => t.contents[id]?) some fun t r => getElem?_insert t r id
  rw [release_eq]
  cases hid : t.contents[id]? with
  | none =>
    refine (hother ?_).trans hid
    rintro ⟨r, hr, -⟩
    rw [hid] at hr
    cases hr
  | some r =>
    rw [Option.map_some]
    by_cases hparent : r.parent = some a
    · rw [Region.orphaned_of_mem (List.mem_singleton.mpr rfl) hparent]
      exact hchild r hid hparent
    · rw [Region.orphaned_of_not_mem fun b hb => List.mem_singleton.mp hb ▸ hparent]
      refine (hother ?_).trans hid
      rintro ⟨q, hq, hq'⟩
      rw [hid] at hq
      cases hq
      exact hparent hq'

end Table
end Precinct
