import Mathlib
import Precinct.Proofs.Region.Overlap
import Precinct.Proofs.Store.Saves

/-!
# Stores that look regions up in a spatial index

* `SpatialIndex`       what a snapshot may be looked up with: coordinates of its own, and a way to
                       ask regions for those about an envelope;
* `SpatialIndex.Exact` what is relied on: coordinates keep their order, and the regions found are
                       those whose envelopes meet the one asked for, in any order;
* `Indexed index`      the store with a snapshot that asks an index.  With `SpatialIndex.scan`, which
                       goes through all regions, it is the store of `Tree` (`Indexed.scan_eq`).  With
                       any exact index it is an exact store.

Comparing envelopes first leaves out no region that passes the exact test (`Tree.filter_meets`).  The
order in which an index finds regions is its own, so the same regions may be shown in another order
than by the plain store.
-/

namespace Precinct

/-! ## spatial indexes -/

/-- a point by the coordinates of a spatial index -/
structure Coordinates (κ : Type) where
  x : κ
  y : κ
  z : κ

/-- a closed box by such coordinates -/
structure Envelope (κ : Type) where
  min : Coordinates κ
  max : Coordinates κ

namespace Envelope
variable {κ : Type} [LinearOrder κ]

/-- the envelope of two arbitrary corners -/
def ofCorners (a b : Coordinates κ) : Envelope κ :=
  ⟨⟨Min.min a.x b.x, Min.min a.y b.y, Min.min a.z b.z⟩,
    ⟨Max.max a.x b.x, Max.max a.y b.y, Max.max a.z b.z⟩⟩

/-- the envelope of a box, given what becomes of a coordinate of the world -/
def ofBox (coordinate : Int32 → κ) (box : Box) : Envelope κ :=
  ofCorners ⟨coordinate box.min.x, coordinate box.min.y, coordinate box.min.z⟩
    ⟨coordinate box.max.x, coordinate box.max.y, coordinate box.max.z⟩

/-- whether two envelopes have a point in common -/
def meets (a b : Envelope κ) : Bool :=
  a.min.x ≤ b.max.x && b.min.x ≤ a.max.x && a.min.y ≤ b.max.y && b.min.y ≤ a.max.y &&
    a.min.z ≤ b.max.z && b.min.z ≤ a.max.z

/-- **Envelopes meet if and only if the boxes overlap**, as long as coordinates keep their order. -/
theorem meets_ofBox {coordinate : Int32 → κ} (mono : ∀ a b, coordinate a ≤ coordinate b ↔ a ≤ b)
    {a b : Box} (ha : a.Ordered) (hb : b.Ordered) :
    (ofBox coordinate a).meets (ofBox coordinate b) = a.overlaps b := by
  have hends : ∀ {box : Box}, box.Ordered → ofBox coordinate box =
      ⟨⟨coordinate box.min.x, coordinate box.min.y, coordinate box.min.z⟩,
        ⟨coordinate box.max.x, coordinate box.max.y, coordinate box.max.z⟩⟩ := by
    intro box h
    have hx := (mono _ _).mpr h.x
    have hy := (mono _ _).mpr h.y
    have hz := (mono _ _).mpr h.z
    simp only [ofBox, ofCorners, min_eq_left hx, min_eq_left hy, min_eq_left hz,
      max_eq_right hx, max_eq_right hy, max_eq_right hz]
  rw [hends ha, hends hb]
  simp only [meets, Box.overlaps, mono]

end Envelope

/-- a spatial index: coordinates of its own, and a way to ask regions for those about an envelope -/
structure SpatialIndex (κ : Type) where
  /-- what becomes of a coordinate of the world -/
  coordinate : Int32 → κ
  /-- the regions, of those loaded, that lie about an envelope -/
  locate : List Region → Envelope κ → List Region

namespace SpatialIndex
variable {κ : Type} [LinearOrder κ]

/-- coordinates keep their order, and the regions found are those whose envelopes meet the one asked
for, each as often as it was loaded -/
class Exact (index : SpatialIndex κ) : Prop where
  mono : ∀ a b, index.coordinate a ≤ index.coordinate b ↔ a ≤ b
  locate_perm : ∀ regions e, (index.locate regions e).Perm
    (regions.filter fun r => (Envelope.ofBox index.coordinate r.bounds).meets e)

/-- the index that goes through all regions, with the integers for its coordinates -/
def scan : SpatialIndex ℤ where
  coordinate := Int32.toInt
  locate regions e := regions.filter fun r => (Envelope.ofBox Int32.toInt r.bounds).meets e

/-- the index that finds them in the opposite order -/
def scanBackwards : SpatialIndex ℤ where
  coordinate := Int32.toInt
  locate regions e := (scan.locate regions e).reverse

instance exact_scan : scan.Exact where
  mono _ _ := Int32.le_iff_toInt_le.symm
  locate_perm _ _ := .rfl

instance exact_scanBackwards : scanBackwards.Exact where
  mono := exact_scan.mono
  locate_perm _ _ := List.reverse_perm _

end SpatialIndex

/-! ## the store that asks an index -/

namespace Tree
variable {κ : Type} [LinearOrder κ]

/-- the regions about a box that pass a test, as an index finds them in the snapshot -/
def locate (index : SpatialIndex κ) (t : Tree) (box : Box) (p : Region → Bool) :
    List Region × Tree :=
  let (regions, t) := t.load
  ((index.locate regions (.ofBox index.coordinate box)).filter p, t)

/-- comparing envelopes and then asking the test is comparing boxes and asking it -/
theorem filter_meets {coordinate : Int32 → κ} (mono : ∀ a b, coordinate a ≤ coordinate b ↔ a ≤ b)
    {box : Box} (ordered : box.Ordered) (p : Region → Bool) (regions : List Region) :
    (regions.filter fun r =>
      (Envelope.ofBox coordinate r.bounds).meets (.ofBox coordinate box)).filter p =
      regions.filter fun r => r.bounds.overlaps box && p r := by
  rw [List.filter_filter]
  refine List.filter_congr fun r _ => ?_
  rw [Envelope.meets_ofBox mono r.ordered_bounds ordered, Bool.and_comm]

theorem locate_perm {index : SpatialIndex κ} (exact : index.Exact) (t : Tree) {box : Box}
    (ordered : box.Ordered) (p : Region → Bool) :
    (t.locate index box p).1.Perm (t.near box p).1 := by
  have hperm := (exact.locate_perm t.load.1 (.ofBox index.coordinate box)).filter p
  rw [filter_meets exact.mono ordered] at hperm
  exact hperm

/-- going through all regions finds them in the order in which they are -/
theorem locate_scan (t : Tree) {box : Box} (ordered : box.Ordered) (p : Region → Bool) :
    t.locate .scan box p = t.near box p :=
  Prod.ext (filter_meets SpatialIndex.exact_scan.mono ordered p t.load.1) rfl

end Tree

/-- the box of a single block -/
theorem Block.ordered_box (p : Block) : (Box.mk p p).Ordered :=
  ⟨Int32.le_refl p.x, Int32.le_refl p.y, Int32.le_refl p.z⟩

/-- the store with a snapshot that asks an index -/
def Indexed {κ : Type} (_ : SpatialIndex κ) : Type := Tree

namespace Indexed
variable {κ : Type} [LinearOrder κ] {index : SpatialIndex κ}

/-- the tree that such a store is -/
def tree (t : Indexed index) : Tree := t

/-- a store of regions, all of them saved -/
def ofRegions (index : SpatialIndex κ) (regions : List Region) : Indexed index :=
  Tree.ofRegions regions

instance : RegionStore (Indexed index) :=
  { (inferInstance : RegionStore Tree) with
    containing := fun t p => Tree.locate index t ⟨p, p⟩ (·.contains p)
    intersecting := fun t r => Tree.locate index t r.bounds (·.intersects r) }

/-- **The store with a snapshot** asks the index that goes through all regions. -/
theorem scan_eq : (instRegionStore : RegionStore (Indexed .scan)) = Tree.instRegionStore := by
  have hcontaining : (fun (t : Tree) p => Tree.locate .scan t ⟨p, p⟩ (·.contains p)) =
      Tree.containing := by
    funext t p
    exact t.locate_scan p.ordered_box _
  have hintersecting : (fun (t : Tree) r => Tree.locate .scan t r.bounds (·.intersects r)) =
      Tree.intersecting := by
    funext t r
    exact t.locate_scan r.ordered_bounds _
  show ({ (inferInstance : RegionStore Tree) with
    containing := fun t p => Tree.locate .scan t ⟨p, p⟩ (·.contains p)
    intersecting := fun t r => Tree.locate .scan t r.bounds (·.intersects r) } : RegionStore Tree) = _
  rw [hcontaining, hintersecting]
  rfl

/-- **An exact index makes an exact store.** -/
instance [exact : index.Exact] : ExactStore (Indexed index) where
  Sound t := t.tree.Sound
  named h := h.keyed.named
  sound_write w h := by
    have hwrite := ExactStore.sound_write (σ := Tree) w h
    cases w <;> exact hwrite
  sound_chore t h := by
    have hchore := ExactStore.sound_chore (σ := Tree) t h
    cases t <;> exact hchore
  values_chore t c := by
    have hchore := ExactStore.values_chore t.tree c
    cases c <;> exact hchore
  containing_perm {t} h p :=
    (t.tree.locate_perm exact p.ordered_box _).trans (ExactStore.containing_perm (σ := Tree) h p)
  sound_containing h _ := h.load.2.2
  values_containing t _ := congrArg (·.contents.regions) t.tree.load_table
  intersecting_perm {t} h r :=
    (t.tree.locate_perm exact r.ordered_bounds _).trans (ExactStore.intersecting_perm (σ := Tree) h r)
  sound_intersecting h _ := h.load.2.2
  values_intersecting t _ := congrArg (·.contents.regions) t.tree.load_table

instance : Tabled (Indexed index) where
  table t := t.tree.table
  values_eq _ := rfl
  isDirty_eq _ := rfl
  ledger_eq _ := rfl
  table_write _ w := by cases w <;> rfl
  table_chore _ c := by cases c <;> rfl
  table_containing t _ := t.tree.load_table
  table_intersecting t _ := t.tree.load_table

instance : TabledRemoval (Indexed index) := ⟨fun _ _ _ => rfl⟩

theorem sound_ofRegions [index.Exact] (regions : List Region) :
    ExactStore.Sound (ofRegions index regions) := Tree.sound_ofRegions regions

end Indexed
end Precinct
