import Mathlib
import Precinct.Proofs.Plane.Reflection
import Precinct.Proofs.Plane.Wide
import Precinct.Proofs.Region.Overlap

/-!
# A region over a polygon holds its even-odd volume

**`contains_polygon_iff`**: a region over a polygon holds the blocks between its two heights that the
outline covers.

* `Covers.within`      nothing is covered out of the extent of the outline, so asking the box first
                       leaves out no block.  Left, right and above no edge passes above the spot;
                       below, every edge in the span does, and around the outline their number is even.

The areas are those that are worked out in 128 bits (`wideCross`).
-/

namespace Precinct
open Plane (Point Spot Covers)

namespace Plane

/-! ## the extent of an outline -/

/-- a rectangle around all vertices -/
structure Extent (outline : List Point) (x₀ x₁ z₀ z₁ : ℚ) : Prop where
  x : ∀ p ∈ outline, x₀ ≤ p.spot.x ∧ p.spot.x ≤ x₁
  z : ∀ p ∈ outline, z₀ ≤ p.spot.z ∧ p.spot.z ≤ z₁

/-- a spot that an edge passes above is lower than the higher end -/
theorem PassesAbove.lt {a b s : Spot} {z₁ : ℚ} (h : PassesAbove a b s) (ha : a.z ≤ z₁)
    (hb : b.z ≤ z₁) : s.z < z₁ := by
  obtain ⟨h₁, h₂, h₃⟩ := h
  have hne : a.x ≠ b.x := by
    intro he
    rw [he, min_self] at h₁
    rw [he, max_self] at h₂
    exact absurd h₁ (not_lt.mpr h₂)
  obtain ⟨t, h0, h1, -, hz⟩ := onSegment_height_of_span hne h₁.le h₂
  have htop := (min_le_mean (x := a.z) (y := b.z) h0 h1).2
  rw [← hz] at htop
  exact h₃.trans_le (htop.trans (max_le ha hb))

section
variable {outline : List Point} {x₀ x₁ z₀ z₁ : ℚ} {s : Spot}

theorem OnOutline.within (he : Extent outline x₀ x₁ z₀ z₁) (h : OnOutline outline s) :
    (x₀ ≤ s.x ∧ s.x ≤ x₁) ∧ z₀ ≤ s.z ∧ s.z ≤ z₁ := by
  obtain ⟨e, hmem, hon⟩ := h
  obtain ⟨h₁, h₂⟩ := mem_of_edge hmem
  exact onSegment_within hon ⟨he.x _ h₁, he.z _ h₁⟩ ⟨he.x _ h₂, he.z _ h₂⟩

/-- below the outline every edge in the span of the spot passes above it -/
theorem even_crossings_of_below (he : Extent outline x₀ x₁ z₀ z₁) (hs : s.z < z₀) :
    (crossings outline s : ZMod 2) = 0 := by
  have hedge : ∀ e ∈ edges outline,
      passing e.1.spot e.2.spot s = leftMark s e.1.spot + leftMark s e.2.spot := by
    intro e hmem
    obtain ⟨h₁, h₂⟩ := mem_of_edge hmem
    have hoff : ¬ OnSegment e.1.spot e.2.spot s := by
      intro hon
      have := (onSegment_within hon ⟨he.x _ h₁, he.z _ h₁⟩ ⟨he.x _ h₂, he.z _ h₂⟩).2.1
      exact absurd this (not_le.mpr hs)
    -- upside down the spot is above both ends
    have hdown : passing e.1.spot.flip e.2.spot.flip s.flip = 0 := by
      refine if_neg fun h => ?_
      have := h.lt (neg_le_neg (he.z _ h₁).1) (neg_le_neg (he.z _ h₂).1)
      exact absurd (neg_lt_neg_iff.mp this) hs.not_gt
    rw [← passing_add_passing_flip hoff, hdown, add_zero]
  rw [cast_crossings, List.map_congr_left hedge]
  exact sum_ends outline fun p => leftMark s p.spot

/-- an outline covers nothing out of its extent -/
theorem Covers.within (he : Extent outline x₀ x₁ z₀ z₁) (h : Covers outline s) :
    (x₀ ≤ s.x ∧ s.x ≤ x₁) ∧ z₀ ≤ s.z ∧ s.z ≤ z₁ := by
  rcases h with h | h
  · exact h.within he
  have hpos : 0 < crossings outline s := h.pos
  obtain ⟨e, hmem, hpass⟩ := List.countP_pos_iff.mp hpos
  obtain ⟨h₁, h₂⟩ := mem_of_edge hmem
  have hpass := of_decide_eq_true hpass
  refine ⟨⟨?_, ?_⟩, ?_, (hpass.lt (he.z _ h₁).2 (he.z _ h₂).2).le⟩
  · exact (le_min (he.x _ h₁).1 (he.x _ h₂).1).trans hpass.1.le
  · exact hpass.2.1.trans (max_le (he.x _ h₁).2 (he.x _ h₂).2)
  · by_contra hlow
    have := even_crossings_of_below he (not_le.mp hlow)
    rw [ZMod.natCast_eq_zero_iff_even] at this
    exact absurd h (Nat.not_odd_iff_even.mpr this)

end

end Plane

/-! ## regions -/

namespace Region

/-- the footprint of a block -/
def ground (p : Block) : Point := ⟨p.x, p.z⟩

theorem extent_bounds (outline : List Point) (lo hi : Int32) :
    let box := (Shape.polygon outline lo hi).bounds
    Plane.Extent outline box.min.x.toInt box.max.x.toInt box.min.z.toInt box.max.z.toInt := by
  constructor
  · intro p hp
    exact ⟨Int.cast_le.mpr ((foldl_min_le Point.x outline _).2 p hp),
      Int.cast_le.mpr ((le_foldl_max Point.x outline _).2 p hp)⟩
  · intro p hp
    exact ⟨Int.cast_le.mpr ((foldl_min_le Point.z outline _).2 p hp),
      Int.cast_le.mpr ((le_foldl_max Point.z outline _).2 p hp)⟩

/-- the box around a polygon leaves out nothing that the outline covers -/
theorem bounds_contains_of_covers {outline : List Point} {lo hi : Int32} {p : Block}
    (h : Covers outline (ground p).spot) (h₁ : lo ≤ p.y) (h₂ : p.y ≤ hi) :
    (Shape.polygon outline lo hi).bounds.contains p = true := by
  obtain ⟨hx, hz⟩ := h.within (extent_bounds outline lo hi)
  refine Box.contains_iff.mpr ⟨⟨?_, ?_⟩, ⟨h₁, h₂⟩, ?_, ?_⟩
  · exact Int32.le_iff_toInt_le.mpr (Int.cast_le.mp hx.1)
  · exact Int32.le_iff_toInt_le.mpr (Int.cast_le.mp hx.2)
  · exact Int32.le_iff_toInt_le.mpr (Int.cast_le.mp hz.1)
  · exact Int32.le_iff_toInt_le.mpr (Int.cast_le.mp hz.2)

/-- **Containment in a polygon is exact**: a block is in the region if its height is between the two
heights and it is on the outline or an odd number of edges pass above it.  The box asked first leaves
out nothing, and the areas fit in 128 bits. -/
theorem contains_polygon_iff {r : Region} {outline : List Point} {lo hi : Int32}
    (h : r.shape = .polygon outline lo hi) (p : Block) :
    (r.contains p = true ↔ (lo ≤ p.y ∧ p.y ≤ hi) ∧ Covers outline (ground p).spot) ∧
    (Plane.polygonContains outline p.x p.z = true → lo ≤ p.y → p.y ≤ hi →
      r.bounds.contains p = true) ∧
    ∀ a b, Plane.wideCross a b (ground p) = some (Plane.cross a b p.x.toInt p.z.toInt) := by
  have hcovers : Plane.polygonContains outline p.x p.z = true ↔ Covers outline (ground p).spot :=
    Plane.polygonContains_iff outline (ground p)
  refine ⟨?_, ?_, fun a b => Plane.wideCross_eq a b (ground p)⟩
  · rw [contains, Bool.and_eq_true, r.bounds_eq, h]
    simp only [hcovers]
    constructor
    · rintro ⟨hbox, hc⟩
      exact ⟨(Box.contains_iff.mp hbox).2.1, hc⟩
    · rintro ⟨hy, hc⟩
      exact ⟨bounds_contains_of_covers hc hy.1 hy.2, hc⟩
  · intro hc h₁ h₂
    rw [r.bounds_eq, h]
    exact bounds_contains_of_covers (hcovers.mp hc) h₁ h₂

/-- in the lower half of the hourglass, below three of its sides -/
theorem hourglass_contains_covered :
    (hourglass.contains ⟨2, 3, -5⟩ = true ∧ (0 ≤ (3 : Int32) ∧ (3 : Int32) ≤ 4) ∧
      Covers [⟨-8, -9⟩, ⟨8, 9⟩, ⟨-8, 9⟩, ⟨8, -9⟩] (ground ⟨2, 3, -5⟩).spot) ∧
    hourglass.bounds.contains ⟨2, 3, -5⟩ = true ∧
    Plane.wideCross ⟨-8, -9⟩ ⟨8, 9⟩ ⟨2, -5⟩ = some (-116) := by
  have h := contains_polygon_iff (r := hourglass) rfl ⟨2, 3, -5⟩
  refine ⟨⟨by decide, h.1.mp (by decide)⟩, h.2.1 (by decide) (by decide) (by decide), ?_⟩
  exact (h.2.2 _ _).trans (by decide)

end Region
end Precinct
