import Mathlib
import Precinct.Proofs.Plane.Crossing

/-!
# The outline of a rectangle

**`covers_corners_iff`**: the outline of the four corners of a rectangle covers the spots of the
rectangle, border included, and no other.

The upright edges pass above nothing.  The two level ones pass above the spots below them in the same
half-open span, so the half-open rectangle has an odd number of crossings; its left and its upper
border are on edges.  The ends may coincide: then the rectangle is a segment or a spot.
-/

namespace Precinct.Plane

/-- the corners of a rectangle in order, given by two opposite ones -/
def corners (a b : Point) : List Point := [a, ⟨b.x, a.z⟩, b, ⟨a.x, b.z⟩]

section
variable {a b : Point} {s : Spot}

theorem edges_corners (a b : Point) : edges (corners a b) =
    [(a, ⟨b.x, a.z⟩), (⟨b.x, a.z⟩, b), (b, ⟨a.x, b.z⟩), (⟨a.x, b.z⟩, a)] := rfl

/-- a level edge passes above the spots below it in its half-open span -/
theorem passesAbove_level {u v : Spot} (hz : v.z = u.z) (hx : u.x ≤ v.x) :
    PassesAbove u v s ↔ (u.x < s.x ∧ s.x ≤ v.x) ∧ s.z < u.z := by
  rw [PassesAbove, height, hz, sub_self, mul_zero, add_zero, min_eq_left hx, max_eq_right hx,
    and_assoc]

theorem not_passesAbove_upright {u v : Spot} (h : u.x = v.x) : ¬ PassesAbove u v s := by
  rw [PassesAbove, h, min_self, max_self]
  exact fun k => absurd k.1 (not_lt.mpr k.2.1)

theorem crossings_corners (hx : a.spot.x ≤ b.spot.x) : crossings (corners a b) s =
    (if (a.spot.x < s.x ∧ s.x ≤ b.spot.x) ∧ s.z < b.spot.z then 1 else 0) +
      if (a.spot.x < s.x ∧ s.x ≤ b.spot.x) ∧ s.z < a.spot.z then 1 else 0 := by
  have hlower : PassesAbove a.spot (Point.spot ⟨b.x, a.z⟩) s ↔
      (a.spot.x < s.x ∧ s.x ≤ b.spot.x) ∧ s.z < a.spot.z := passesAbove_level rfl hx
  have hupper : PassesAbove b.spot (Point.spot ⟨a.x, b.z⟩) s ↔
      (a.spot.x < s.x ∧ s.x ≤ b.spot.x) ∧ s.z < b.spot.z := by
    rw [passesAbove_comm]
    exact passesAbove_level rfl hx
  have hright : ¬ PassesAbove (Point.spot ⟨b.x, a.z⟩) b.spot s := not_passesAbove_upright rfl
  have hleft : ¬ PassesAbove (Point.spot ⟨a.x, b.z⟩) a.spot s := not_passesAbove_upright rfl
  rw [crossings, edges_corners]
  simp only [List.countP_cons, List.countP_nil, hupper, hlower, hright, hleft, decide_eq_true_eq,
    if_false, zero_add, add_zero]

/-- an odd number of them: the spot is below the upper edge and not below the lower one -/
theorem odd_crossings_corners_iff (hx : a.spot.x ≤ b.spot.x) (hz : a.spot.z ≤ b.spot.z) :
    Odd (crossings (corners a b) s) ↔
      (a.spot.x < s.x ∧ s.x ≤ b.spot.x) ∧ a.spot.z ≤ s.z ∧ s.z < b.spot.z := by
  rw [crossings_corners hx]
  by_cases hspan : a.spot.x < s.x ∧ s.x ≤ b.spot.x
  · simp only [hspan, true_and]
    rcases lt_or_ge s.z a.spot.z with h | h
    · rw [if_pos (h.trans_le hz), if_pos h]
      exact ⟨fun k => absurd k (by decide), fun k => absurd h (not_lt.mpr k.1)⟩
    · rw [if_neg (not_lt.mpr h), add_zero]
      by_cases h₁ : s.z < b.spot.z
      · rw [if_pos h₁]
        exact ⟨fun _ => ⟨h, h₁⟩, fun _ => odd_one⟩
      · rw [if_neg h₁]
        exact ⟨fun k => absurd k (by decide), fun k => absurd k.2 h₁⟩
  · simp only [hspan, false_and, if_false, add_zero, iff_false]
    decide

/-- a segment between two spots of a rectangle stays in it -/
theorem onSegment_within {u v : Spot} {x₀ x₁ z₀ z₁ : ℚ} (h : OnSegment u v s)
    (hu : (x₀ ≤ u.x ∧ u.x ≤ x₁) ∧ z₀ ≤ u.z ∧ u.z ≤ z₁)
    (hv : (x₀ ≤ v.x ∧ v.x ≤ x₁) ∧ z₀ ≤ v.z ∧ v.z ≤ z₁) : (x₀ ≤ s.x ∧ s.x ≤ x₁) ∧ z₀ ≤ s.z ∧ s.z ≤ z₁ := by
  obtain ⟨t, h0, h1, hx, hz⟩ := h
  obtain ⟨hxl, hxr⟩ := min_le_mean (x := u.x) (y := v.x) h0 h1
  obtain ⟨hzl, hzr⟩ := min_le_mean (x := u.z) (y := v.z) h0 h1
  rw [← hx] at hxl hxr
  rw [← hz] at hzl hzr
  exact ⟨⟨(le_min hu.1.1 hv.1.1).trans hxl, hxr.trans (max_le hu.1.2 hv.1.2)⟩,
    (le_min hu.2.1 hv.2.1).trans hzl, hzr.trans (max_le hu.2.2 hv.2.2)⟩

theorem onOutline_within (hx : a.spot.x ≤ b.spot.x) (hz : a.spot.z ≤ b.spot.z)
    (h : OnOutline (corners a b) s) : (a.spot.x ≤ s.x ∧ s.x ≤ b.spot.x) ∧
      a.spot.z ≤ s.z ∧ s.z ≤ b.spot.z := by
  obtain ⟨e, he, hon⟩ := h
  have hx₀ := le_refl a.spot.x
  have hx₁ := le_refl b.spot.x
  have hz₀ := le_refl a.spot.z
  have hz₁ := le_refl b.spot.z
  rw [edges_corners] at he
  simp only [List.mem_cons, List.not_mem_nil, or_false] at he
  rcases he with rfl | rfl | rfl | rfl
  · exact onSegment_within hon ⟨⟨hx₀, hx⟩, hz₀, hz⟩ ⟨⟨hx, hx₁⟩, hz₀, hz⟩
  · exact onSegment_within hon ⟨⟨hx, hx₁⟩, hz₀, hz⟩ ⟨⟨hx, hx₁⟩, hz, hz₁⟩
  · exact onSegment_within hon ⟨⟨hx, hx₁⟩, hz, hz₁⟩ ⟨⟨hx₀, hx⟩, hz, hz₁⟩
  · exact onSegment_within hon ⟨⟨hx₀, hx⟩, hz, hz₁⟩ ⟨⟨hx₀, hx⟩, hz₀, hz⟩

/-- the outline of the corners covers the rectangle and nothing else -/
theorem covers_corners_iff (hx : a.spot.x ≤ b.spot.x) (hz : a.spot.z ≤ b.spot.z) :
    Covers (corners a b) s ↔ (a.spot.x ≤ s.x ∧ s.x ≤ b.spot.x) ∧
      a.spot.z ≤ s.z ∧ s.z ≤ b.spot.z := by
  rw [Covers, odd_crossings_corners_iff hx hz]
  constructor
  · rintro (h | ⟨⟨h₁, h₂⟩, h₃, h₄⟩)
    · exact onOutline_within hx hz h
    · exact ⟨⟨h₁.le, h₂⟩, h₃, h₄.le⟩
  · rintro ⟨⟨h₁, h₂⟩, h₃, h₄⟩
    -- the half-open rectangle leaves out the left edge and the upper one
    rcases eq_or_lt_of_le h₁ with he | hleft
    · refine Or.inl ⟨(⟨a.x, b.z⟩, a), by simp [edges_corners], OnSegment.symm ?_⟩
      exact onSegment_of_upright rfl he.symm h₃ h₄
    rcases eq_or_lt_of_le h₄ with he | hupper
    · refine Or.inl ⟨(b, ⟨a.x, b.z⟩), by simp [edges_corners], OnSegment.symm ?_⟩
      have hon := onSegment_height (a := Point.spot ⟨a.x, b.z⟩) (b := b.spot) (x := s.x)
        (hleft.trans_le h₂) h₁ h₂
      rw [height, show (Point.spot ⟨a.x, b.z⟩).z = b.spot.z from rfl, sub_self, mul_zero, add_zero,
        ← he] at hon
      exact hon
    · exact Or.inr ⟨⟨hleft, h₂⟩, h₃, hupper⟩
end

end Precinct.Plane
