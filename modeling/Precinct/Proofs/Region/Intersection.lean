import Mathlib
import Precinct.Proofs.Region.Overlap
import Precinct.Proofs.Region.Polygon

/-!
# Regions intersect if they have a spot in common, and only then

**`intersects_iff`**: two regions intersect if and only if their heights have a value in common and
their closed footprints a spot, which may lie between the grid points.  So the test invents no overlap,
whichever of its three reasons it has: two boxes, a vertex of one footprint in the other, or two sides
that cross.

**`intersects_comm_self`**: the test does not look at the order of the two regions, and a region
intersects itself: none is so thin that it holds no block (`exists_contains`).

* `Shape.InHeights`, `Shape.InFootprint`  the heights of a shape and its closed footprint, told without
                       the test.
-/

namespace Precinct
open Plane (Point Spot Covers)

namespace Shape

/-- the heights that a shape reaches over -/
def InHeights (shape : Shape) (y : Int32) : Prop :=
  match shape with
  | cuboid lo hi => lo.y ≤ y ∧ y ≤ hi.y
  | polygon _ minY maxY => minY ≤ y ∧ y ≤ maxY

/-- the closed footprint: a rectangle, or what is on an outline or inside it by parity -/
def InFootprint (shape : Shape) (s : Spot) : Prop :=
  match shape with
  | cuboid lo hi => ((lo.x.toInt : ℚ) ≤ s.x ∧ s.x ≤ hi.x.toInt) ∧
      (lo.z.toInt : ℚ) ≤ s.z ∧ s.z ≤ hi.z.toInt
  | polygon outline _ _ => Covers outline s

variable {shape : Shape}

theorem inHeights_iff {y : Int32} :
    shape.InHeights y ↔ shape.bounds.min.y ≤ y ∧ y ≤ shape.bounds.max.y := by
  cases shape <;> exact Iff.rfl

/-- the closed footprint is what the outline of the footprint covers -/
theorem Proper.inFootprint_iff (h : shape.Proper) {s : Spot} :
    shape.InFootprint s ↔ Covers shape.footprint s := by
  cases shape with
  | cuboid lo hi =>
    have hx := Plane.x_le_iff (p := ⟨lo.x, lo.z⟩) (q := ⟨hi.x, hi.z⟩) |>.mpr h.1
    have hz := Plane.z_le_iff (p := ⟨lo.x, lo.z⟩) (q := ⟨hi.x, hi.z⟩) |>.mpr h.2.2
    exact (Plane.covers_corners_iff hx hz).symm
  | polygon outline minY maxY => exact Iff.rfl

/-- the footprint does not reach out of the box around the shape -/
theorem InFootprint.within {s : Spot} (h : shape.InFootprint s) :
    ((shape.bounds.min.x.toInt : ℚ) ≤ s.x ∧ s.x ≤ shape.bounds.max.x.toInt) ∧
      (shape.bounds.min.z.toInt : ℚ) ≤ s.z ∧ s.z ≤ shape.bounds.max.z.toInt := by
  cases shape with
  | cuboid lo hi => exact h
  | polygon outline minY maxY => exact Plane.Covers.within (Region.extent_bounds outline minY maxY) h

end Shape

namespace Region

/-! ## when two regions intersect -/

theorem exists_inFootprint_of_cuboids {a b : Shape} (ha : a.Proper) (hb : b.Proper)
    (hover : a.bounds.overlaps b.bounds = true) (hac : a.isCuboid = true) (hbc : b.isCuboid = true) :
    ∃ s, a.InFootprint s ∧ b.InFootprint s := by
  obtain ⟨hx, -, hz⟩ := Box.overlaps_iff.mp hover
  obtain ⟨x, hxa, hxb⟩ := exists_between ha.ordered.x hb.ordered.x hx
  obtain ⟨z, hza, hzb⟩ := exists_between ha.ordered.z hb.ordered.z hz
  cases a with
  | polygon => cases hac
  | cuboid =>
    cases b with
    | polygon => cases hbc
    | cuboid =>
      refine ⟨Point.spot ⟨x, z⟩, ?_, ?_⟩
      · simp only [Shape.InFootprint, Point.spot, Int.cast_le, ← Int32.le_iff_toInt_le]
        exact ⟨hxa, hza⟩
      · simp only [Shape.InFootprint, Point.spot, Int.cast_le, ← Int32.le_iff_toInt_le]
        exact ⟨hxb, hzb⟩

theorem overlaps_of_common {a b : Shape} {y : Int32} {s : Spot} (hya : a.InHeights y)
    (hyb : b.InHeights y) (hsa : a.InFootprint s) (hsb : b.InFootprint s) :
    a.bounds.overlaps b.bounds = true := by
  rw [Shape.inHeights_iff] at hya hyb
  obtain ⟨hxa, hza⟩ := hsa.within
  obtain ⟨hxb, hzb⟩ := hsb.within
  have hle : ∀ {m n : Int32} {q : ℚ}, (m.toInt : ℚ) ≤ q → q ≤ n.toInt → m ≤ n := fun h₁ h₂ =>
    Int32.le_iff_toInt_le.mpr (Int.cast_le.mp (h₁.trans h₂))
  refine Box.overlaps_iff.mpr ⟨⟨hle hxa.1 hxb.2, hle hxb.1 hxa.2⟩, ⟨?_, ?_⟩,
    hle hza.1 hzb.2, hle hzb.1 hza.2⟩
  · exact Int32.le_trans hya.1 hyb.2
  · exact Int32.le_trans hyb.1 hya.2

/-- **Regions intersect if and only if** their heights have a value in common and their closed
footprints a spot. -/
theorem intersects_iff (a b : Region) : a.intersects b = true ↔
    (∃ y, a.shape.InHeights y ∧ b.shape.InHeights y) ∧
      ∃ s, a.shape.InFootprint s ∧ b.shape.InFootprint s := by
  rw [intersects, Bool.and_eq_true, Bool.or_eq_true, Bool.and_eq_true, a.bounds_eq, b.bounds_eq,
    footprintsMeet_iff a.proper b.proper]
  simp only [← a.proper.inFootprint_iff, ← b.proper.inFootprint_iff]
  constructor
  · rintro ⟨hover, hmeet⟩
    constructor
    · simp only [Shape.inHeights_iff]
      exact exists_between a.proper.ordered.y b.proper.ordered.y (Box.overlaps_iff.mp hover).2.1
    · rcases hmeet with ⟨hac, hbc⟩ | hmeet
      · exact exists_inFootprint_of_cuboids a.proper b.proper hover hac hbc
      · exact hmeet
  · rintro ⟨⟨y, hya, hyb⟩, s, hsa, hsb⟩
    exact ⟨overlaps_of_common hya hyb hsa hsb, Or.inr ⟨s, hsa, hsb⟩⟩

/-! ## symmetry, and a region with itself -/

theorem overlaps_comm (a b : Box) : a.overlaps b = b.overlaps a := by
  rw [Bool.eq_iff_iff, Box.overlaps_iff, Box.overlaps_iff]
  exact and_congr and_comm (and_congr and_comm and_comm)

theorem footprintsMeet_comm {a b : Shape} (ha : a.Proper) (hb : b.Proper) :
    footprintsMeet a b = footprintsMeet b a := by
  rw [Bool.eq_iff_iff, footprintsMeet_iff ha hb, footprintsMeet_iff hb ha]
  exact exists_congr fun s => and_comm

theorem exists_contains (r : Region) : ∃ p, r.contains p = true := by
  have hproper := r.proper
  have hbounds := r.bounds_eq
  unfold contains
  cases hs : r.shape with
  | cuboid lo hi =>
    rw [hs] at hproper hbounds
    refine ⟨lo, Bool.and_eq_true_iff.mpr ⟨?_, rfl⟩⟩
    rw [hbounds]
    exact Box.contains_iff.mpr ⟨⟨Int32.le_refl _, hproper.1⟩, ⟨Int32.le_refl _, hproper.2.1⟩,
      Int32.le_refl _, hproper.2.2⟩
  | polygon outline minY maxY =>
    rw [hs] at hproper hbounds
    -- a vertex is on the outline
    obtain ⟨v, hv⟩ := List.exists_mem_of_length_pos (lt_of_lt_of_le three_pos hproper.1)
    have hcovers : Covers outline v.spot := Or.inl (Plane.onOutline_of_mem hv)
    refine ⟨⟨v.x, minY, v.z⟩, Bool.and_eq_true_iff.mpr ⟨?_, ?_⟩⟩
    · rw [hbounds]
      exact bounds_contains_of_covers hcovers (Int32.le_refl minY) hproper.2
    · exact (Plane.polygonContains_iff outline v).mpr hcovers

/-- **The test is symmetric and reflexive.** -/
theorem intersects_comm_self :
    (∀ a b : Region, a.intersects b = b.intersects a) ∧ ∀ a : Region, a.intersects a = true := by
  constructor
  · intro a b
    rw [intersects, intersects, overlaps_comm, Bool.and_comm a.shape.isCuboid,
      footprintsMeet_comm a.proper b.proper]
  · intro a
    obtain ⟨p, hp⟩ := a.exists_contains
    exact intersects_of_common hp hp

end Region
end Precinct
