import Mathlib
import Precinct.Proofs.Plane.Containment
import Precinct.Proofs.Plane.Overlap
import Precinct.Proofs.Plane.Rectangle
import Precinct.Proofs.World.Column
import Precinct.Region.Basic

/-!
# Regions with a common block intersect

**`intersects_of_contains`**: the test by which regions are sorted out never says no to two regions
with a common block; in particular a region with a block of a column intersects the region over that
column.

A box has the same footprint as the polygon of its four corners (`Plane.covers_corners_iff`), so every
footprint is the closed even-odd region of its outline (`footprintContains_iff`), and the test for two
footprints is whether their outlines cover a common spot (`footprintsMeet_iff`).
-/

namespace Precinct
open Plane (Point Covers)

/-- the footprint of a proper shape is the even-odd region of its outline -/
theorem Shape.footprintContains_iff {shape : Shape} (h : shape.Proper) (p : Point) :
    shape.footprintContains p.x p.z = true ↔ Covers shape.footprint p.spot := by
  cases shape with
  | cuboid lo hi =>
    have hx := Plane.x_le_iff (p := ⟨lo.x, lo.z⟩) (q := ⟨hi.x, hi.z⟩) |>.mpr h.1
    have hz := Plane.z_le_iff (p := ⟨lo.x, lo.z⟩) (q := ⟨hi.x, hi.z⟩) |>.mpr h.2.2
    rw [show (Shape.cuboid lo hi).footprint = Plane.corners ⟨lo.x, lo.z⟩ ⟨hi.x, hi.z⟩ from rfl,
      Plane.covers_corners_iff hx hz]
    simp only [Plane.x_le_iff, Plane.z_le_iff, Shape.footprintContains, Bool.and_eq_true,
      decide_eq_true_eq, and_assoc]
  | polygon outline minY maxY => exact Plane.polygonContains_iff outline p

/-! ## the box around a region -/

/-- the ends of a box are in order -/
structure Box.Ordered (box : Box) : Prop where
  x : box.min.x ≤ box.max.x
  y : box.min.y ≤ box.max.y
  z : box.min.z ≤ box.max.z

/-- the box around a proper shape is not turned around -/
theorem Shape.Proper.ordered {shape : Shape} (h : shape.Proper) : shape.bounds.Ordered := by
  cases shape with
  | cuboid lo hi => exact ⟨h.1, h.2.1, h.2.2⟩
  | polygon outline minY maxY =>
    obtain ⟨p, hp⟩ := List.exists_mem_of_length_pos (lt_of_lt_of_le three_pos h.1)
    refine ⟨Int32.le_iff_toInt_le.mpr ?_, h.2, Int32.le_iff_toInt_le.mpr ?_⟩
    · exact ((foldl_min_le Plane.Point.x outline _).2 p hp).trans
        ((le_foldl_max Plane.Point.x outline _).2 p hp)
    · exact ((foldl_min_le Plane.Point.z outline _).2 p hp).trans
        ((le_foldl_max Plane.Point.z outline _).2 p hp)

theorem Region.ordered_bounds (r : Region) : r.bounds.Ordered := by
  rw [r.bounds_eq]
  exact r.proper.ordered

/-! ## regions -/

namespace Region

theorem bounds_contains {r : Region} {p : Block} (h : r.contains p = true) :
    r.bounds.contains p = true := by
  rw [contains, Bool.and_eq_true] at h
  exact h.1

/-- a block of a region is above a point of its footprint -/
theorem footprintContains_of_contains {r : Region} {p : Block} (h : r.contains p = true) :
    r.shape.footprintContains p.x p.z = true := by
  rw [contains, Bool.and_eq_true] at h
  obtain ⟨hbox, hshape⟩ := h
  rw [r.bounds_eq] at hbox
  cases hs : r.shape with
  | cuboid lo hi =>
    rw [hs] at hbox
    obtain ⟨hx, -, hz⟩ := Box.contains_iff.mp hbox
    simp only [Shape.footprintContains, Bool.and_eq_true, decide_eq_true_eq, and_assoc]
    exact ⟨hx.1, hx.2, hz⟩
  | polygon outline minY maxY =>
    rw [hs] at hshape
    exact hshape

/-- **Footprints meet** if their outlines cover a common spot, and only then. -/
theorem footprintsMeet_iff {a b : Shape} (ha : a.Proper) (hb : b.Proper) :
    footprintsMeet a b = true ↔ ∃ s, Covers a.footprint s ∧ Covers b.footprint s := by
  rw [footprintsMeet, Bool.or_eq_true, Bool.or_eq_true, List.any_eq_true, List.any_eq_true]
  constructor
  · rintro ((⟨p, hp, hc⟩ | ⟨p, hp, hc⟩) | hm)
    · exact ⟨p.spot, Or.inl (Plane.onOutline_of_mem hp), (Shape.footprintContains_iff hb p).mp hc⟩
    · exact ⟨p.spot, (Shape.footprintContains_iff ha p).mp hc, Or.inl (Plane.onOutline_of_mem hp)⟩
    · obtain ⟨e, he, f, hf, s, hes, hfs⟩ := Plane.meet_of_outlinesCross hm
      exact ⟨s, Or.inl ⟨e, he, hes⟩, Or.inl ⟨f, hf, hfs⟩⟩
  · rintro ⟨s, hsa, hsb⟩
    rcases Plane.exists_vertex_or_meet hsa hsb with ⟨p, hp, hc⟩ | ⟨p, hp, hc⟩ | hm
    · exact Or.inl (Or.inl ⟨p, hp, (Shape.footprintContains_iff hb p).mpr hc⟩)
    · exact Or.inl (Or.inr ⟨p, hp, (Shape.footprintContains_iff ha p).mpr hc⟩)
    · exact Or.inr (Plane.outlinesCross_of_meet hm)

/-- regions with a common block intersect -/
theorem intersects_of_common {a b : Region} {p : Block} (ha : a.contains p = true)
    (hb : b.contains p = true) : a.intersects b = true := by
  rw [intersects, Bool.and_eq_true, Bool.or_eq_true]
  refine ⟨Box.overlaps_of_contains (bounds_contains ha) (bounds_contains hb), Or.inr ?_⟩
  refine (footprintsMeet_iff a.proper b.proper).mpr ⟨Point.spot ⟨p.x, p.z⟩, ?_, ?_⟩
  · exact (Shape.footprintContains_iff a.proper _).mp (footprintContains_of_contains ha)
  · exact (Shape.footprintContains_iff b.proper _).mp (footprintContains_of_contains hb)

theorem column_contains (p : Block) : (column p.column).contains p = true := by
  rw [contains, Bool.and_eq_true]
  exact ⟨Column.bounds_contains p, rfl⟩

/-- **Regions with a common block intersect**, and a region with a block of a column intersects the
region over that column. -/
theorem intersects_of_contains :
    (∀ (a b : Region) (p : Block), a.contains p = true → b.contains p = true →
      a.intersects b = true) ∧
    ∀ (r : Region) (p : Block), r.contains p = true → r.intersects (column p.column) = true :=
  ⟨fun _ _ _ ha hb => intersects_of_common ha hb,
    fun _ p h => intersects_of_common h (column_contains p)⟩

/-- an hourglass that crosses itself at the origin -/
def hourglass : Region :=
  ofShape "hourglass" (.polygon [⟨-8, -9⟩, ⟨8, 9⟩, ⟨-8, 9⟩, ⟨8, -9⟩] 0 4) (by decide)

/-- a flat bar across its waist; no vertex of one is in the other -/
def bar : Region :=
  ofShape "bar" (.polygon [⟨-20, -1⟩, ⟨20, -1⟩, ⟨20, 2⟩, ⟨-20, 2⟩] 0 4) (by decide)

theorem hourglass_intersects_bar :
    (hourglass.contains ⟨0, 3, 1⟩ = true ∧ bar.contains ⟨0, 3, 1⟩ = true ∧
      hourglass.intersects bar = true) ∧
    hourglass.intersects (column (Block.column ⟨0, 3, 1⟩)) = true :=
  ⟨⟨by decide, by decide,
    intersects_of_contains.1 hourglass bar ⟨0, 3, 1⟩ (by decide) (by decide)⟩,
    intersects_of_contains.2 hourglass ⟨0, 3, 1⟩ (by decide)⟩

end Region
end Precinct
