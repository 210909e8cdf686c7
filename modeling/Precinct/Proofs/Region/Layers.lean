import Mathlib
import Precinct.Region.Basic

/-!
# Layers are well ordered

* `layerOrder` is a linear order of ranks: priority downwards, then the name upwards;
* `Above`              what it is for one region to come before another (`layerOrder_eq_lt_iff`);
* `inLayers_perm`, `pairwise_inLayers`  putting regions in layers loses none and sorts them;
* `Named`              no two regions of a list have one name.  Such regions have no rank in common,
                       so their layers are strict (`strict_inLayers`) and do not depend on the order
                       in which they came (`inLayers_congr`);
* `filter_inLayers`    sorting out before or after makes no difference then.
-/

namespace Precinct
namespace Region

/-! ## the order -/

theorem layerOrder_eq_compareLex :
    layerOrder = compareLex (fun a b => compare b.priority a.priority) (compareOn Region.id) := rfl

instance : Std.TransCmp layerOrder := by
  have h : Std.TransCmp (compareOn Region.priority) := inferInstance
  have h' : Std.TransCmp fun a b : Region => compare b.priority a.priority :=
    @Std.TransCmp.opposite Region (compareOn Region.priority) h
  rw [layerOrder_eq_compareLex]
  exact inferInstance

theorem layerLe_trans (a b c : Region) (h₁ : a.layerLe b = true) (h₂ : b.layerLe c = true) :
    a.layerLe c = true := Std.TransCmp.isLE_trans h₁ h₂

theorem layerLe_total (a b : Region) : (a.layerLe b || b.layerLe a) = true := by
  have hswap : b.layerOrder a = (a.layerOrder b).swap := Std.OrientedCmp.eq_swap
  rw [Bool.or_eq_true, layerLe, layerLe, hswap]
  cases a.layerOrder b <;> decide

/-- the higher priority comes first, then the smaller name -/
def Above (a b : Region) : Prop :=
  b.priority < a.priority ∨ b.priority = a.priority ∧ a.id < b.id

theorem layerOrder_eq_lt_iff {a b : Region} : a.layerOrder b = .lt ↔ a.Above b := by
  have hid : compare a.id b.id = .lt ↔ a.id < b.id := compareOfLessAndEq_eq_lt
  rw [layerOrder, Ordering.then_eq_lt, Std.compare_eq_lt, hid, Std.LawfulEqCmp.compare_eq_iff_eq,
    Above]

/-- regions of one rank have one name -/
theorem id_eq_of_layerOrder {a b : Region} (h : a.layerOrder b = .eq) : a.id = b.id := by
  rw [layerOrder, Ordering.then_eq_eq] at h
  exact Std.LawfulEqOrd.eq_of_compare h.2

/-! ## regions in layers -/

theorem inLayers_perm (regions : List Region) : (inLayers regions).Perm regions :=
  List.mergeSort_perm regions layerLe

theorem mem_inLayers {r : Region} {regions : List Region} : r ∈ inLayers regions ↔ r ∈ regions :=
  (inLayers_perm regions).mem_iff

theorem pairwise_inLayers (regions : List Region) :
    (inLayers regions).Pairwise fun a b => a.layerLe b = true :=
  List.pairwise_mergeSort layerLe_trans layerLe_total regions

theorem inLayers_of_pairwise {regions : List Region}
    (h : regions.Pairwise fun a b => a.layerLe b = true) : inLayers regions = regions :=
  List.mergeSort_of_pairwise h

/-- no two of the regions have one name -/
def Named (regions : List Region) : Prop := (regions.map Region.id).Nodup

theorem Named.perm {l m : List Region} (h : Named l) (hp : m.Perm l) : Named m :=
  (hp.map Region.id).nodup_iff.mpr h

theorem Named.filter {l : List Region} (h : Named l) (p : Region → Bool) : Named (l.filter p) :=
  h.sublist (List.filter_sublist.map Region.id)

theorem Named.eq_of_id {l : List Region} (h : Named l) {a b : Region} (ha : a ∈ l) (hb : b ∈ l)
    (hid : a.id = b.id) : a = b :=
  List.inj_on_of_nodup_map h ha hb hid

/-- regions of different names are layered one strictly after the other -/
theorem strict_inLayers {regions : List Region} (h : Named regions) :
    (inLayers regions).Pairwise Above := by
  have hne : (inLayers regions).Pairwise fun a b => a.id ≠ b.id := by
    have hnodup : ((inLayers regions).map Region.id).Nodup := h.perm (inLayers_perm regions)
    rw [List.Nodup, List.pairwise_map] at hnodup
    exact hnodup
  refine (pairwise_inLayers regions).imp₂ (fun a b hle hid => ?_) hne
  rw [layerLe] at hle
  rw [← layerOrder_eq_lt_iff]
  cases ho : a.layerOrder b with
  | lt => rfl
  | eq => exact absurd (id_eq_of_layerOrder ho) hid
  | gt =>
    rw [ho] at hle
    exact absurd hle (by decide)

theorem eq_of_pairwise_layerLe {l m : List Region} (h : Named m) (hp : l.Perm m)
    (hl : l.Pairwise fun a b => a.layerLe b = true)
    (hm : m.Pairwise fun a b => a.layerLe b = true) : l = m := by
  refine List.Perm.eq_of_pairwise (fun a b ha hb hab hba => ?_) hl hm hp
  refine h.eq_of_id (hp.mem_iff.mp ha) hb (id_eq_of_layerOrder ?_)
  exact Std.OrientedCmp.isLE_antisymm hab hba

/-- the layers do not depend on the order in which the regions came -/
theorem inLayers_congr {l m : List Region} (h : Named m) (hp : l.Perm m) :
    inLayers l = inLayers m :=
  eq_of_pairwise_layerLe (h.perm (inLayers_perm m))
    ((inLayers_perm l).trans (hp.trans (inLayers_perm m).symm)) (pairwise_inLayers l)
    (pairwise_inLayers m)

/-- sorting out the layered regions is layering those sorted out -/
theorem filter_inLayers {regions : List Region} (h : Named regions) (p : Region → Bool) :
    (inLayers regions).filter p = inLayers (regions.filter p) :=
  eq_of_pairwise_layerLe ((h.filter p).perm (inLayers_perm _))
    (((inLayers_perm regions).filter p).trans (inLayers_perm _).symm)
    ((pairwise_inLayers regions).filter p) (pairwise_inLayers _)

end Region
end Precinct
