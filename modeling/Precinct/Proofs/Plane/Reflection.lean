import Mathlib
import Precinct.Proofs.Plane.Containment
import Precinct.Proofs.Plane.Crossing

/-!
# Containment does not depend on the direction of the count

**`polygonContains_reflect`**: an outline and a point may change their axes for each other, or be
mirrored in either axis; the answer stays.

* `Covers.map_iff`  the argument for any map of the plane.  The crossings counted before and after it
                    may differ edge by edge, as long as the two numbers of an edge add up to a mark of
                    its two ends modulo 2: around an outline the marks cancel (`sum_ends`);
* `passing_add_passing_flip`       upside down, an edge in the span of the spot is above it or below it;
                    the mark says which vertices are left of the spot;
* `passing_add_passing_transpose`  on its side, the count goes to the right instead of up; the mark
                    says which vertices are in the quarter above and to the right of the spot.
-/

namespace Precinct.Plane

/-! ## above a spot, by the side of a line -/

/-- upside down -/
def Spot.flip (s : Spot) : Spot := ⟨s.x, -s.z⟩

/-- the two axes change places -/
def Spot.transpose (s : Spot) : Spot := ⟨s.z, s.x⟩

section
variable {a b s : Spot}

theorem turn_comm (a b s : Spot) : turn b a s = -turn a b s := by
  rw [turn, turn]
  ring

theorem turn_transpose (a b s : Spot) :
    turn a.transpose b.transpose s.transpose = -turn a b s := by
  rw [turn, turn, Spot.transpose, Spot.transpose, Spot.transpose]
  ring

theorem turn_flip (a b s : Spot) : turn a.flip b.flip s.flip = -turn a b s := by
  rw [turn, turn, Spot.flip, Spot.flip, Spot.flip]
  ring

/-- from left to right the line is above the spots on its right-hand side -/
theorem passesAbove_iff_turn (hab : a.x ≤ b.x) :
    PassesAbove a b s ↔ (a.x < s.x ∧ s.x ≤ b.x) ∧ turn a b s < 0 := by
  rw [PassesAbove, min_eq_left hab, max_eq_right hab, ← and_assoc]
  refine and_congr_right fun h => ?_
  have hpos : 0 < b.x - a.x := sub_pos.mpr (h.1.trans_le h.2)
  rw [height, div_mul_eq_mul_div, ← sub_lt_iff_lt_add', lt_div_iff₀ hpos, turn, sub_neg]
  rw [mul_comm (s.x - a.x), mul_comm (s.z - a.z)]

/-- on the line and in its span is on the segment -/
theorem onSegment_of_turn (h₁ : a.x < s.x) (h₂ : s.x ≤ b.x) (h : turn a b s = 0) :
    OnSegment a b s := by
  have hpos : 0 < b.x - a.x := sub_pos.mpr (h₁.trans_le h₂)
  have hz : s.z = height a b s.x := by
    rw [height, div_mul_eq_mul_div, ← sub_eq_iff_eq_add', eq_div_iff hpos.ne']
    rw [turn] at h
    linarith
  have hs : s = ⟨s.x, height a b s.x⟩ := by rw [← hz]
  rw [hs]
  exact onSegment_height (h₁.trans_le h₂) h₁.le h₂

theorem onSegment_flip_iff : OnSegment a.flip b.flip s.flip ↔ OnSegment a b s := by
  unfold OnSegment Spot.flip
  refine exists_congr fun t => ?_
  have h : -s.z = -a.z + t * (-b.z - -a.z) ↔ s.z = a.z + t * (b.z - a.z) := by
    constructor <;> intro h <;> linarith
  simp only [h]

theorem onSegment_transpose_iff :
    OnSegment a.transpose b.transpose s.transpose ↔ OnSegment a b s := by
  unfold OnSegment Spot.transpose
  refine exists_congr fun t => ?_
  simp only [and_comm]

/-! ## one edge -/

/-- the mark of the vertices to the left of a spot -/
def leftMark (s v : Spot) : ZMod 2 := if v.x < s.x then 1 else 0

/-- the mark of the vertices in the closed quarter above and to the right of a spot -/
def quarterMark (s v : Spot) : ZMod 2 := if s.x ≤ v.x ∧ s.z ≤ v.z then 1 else 0

theorem passing_add_passing_flip (hs : ¬ OnSegment a b s) :
    passing a b s + passing a.flip b.flip s.flip = leftMark s a + leftMark s b := by
  wlog hab : a.x ≤ b.x generalizing a b
  · rw [passing_comm a b, passing_comm a.flip, add_comm (leftMark s a)]
    exact this (fun h => hs h.symm) (le_of_not_ge hab)
  have hup := passesAbove_iff_turn (s := s) hab
  have hdown : PassesAbove a.flip b.flip s.flip ↔ (a.x < s.x ∧ s.x ≤ b.x) ∧ 0 < turn a b s := by
    rw [passesAbove_iff_turn (by exact hab), turn_flip, neg_lt_zero]
    rfl
  unfold passing leftMark
  by_cases hspan : a.x < s.x ∧ s.x ≤ b.x
  · simp only [hup, hdown, hspan, true_and, if_true, not_lt.mpr hspan.2, if_false, add_zero]
    rcases lt_trichotomy (turn a b s) 0 with h | h | h
    · rw [if_pos h, if_neg h.not_gt, add_zero]
    · exact absurd (onSegment_of_turn hspan.1 hspan.2 h) hs
    · rw [if_pos h, if_neg h.not_gt, zero_add]
  · -- out of its span both ends are on one side of the spot
    have hside : a.x < s.x ↔ b.x < s.x := by
      constructor
      · intro h
        exact not_le.mp fun k => hspan ⟨h, k⟩
      · intro h
        exact hab.trans_lt h
    simp only [hup, hdown, hspan, false_and, if_false, add_zero]
    simp only [hside]
    exact (CharTwo.add_self_eq_zero (R := ZMod 2) _).symm

/-- the edge in its span on its side, from its lower end to its upper one -/
theorem passesAbove_transpose_iff (hab : a.z ≤ b.z) :
    PassesAbove a.transpose b.transpose s.transpose ↔
      (a.z < s.z ∧ s.z ≤ b.z) ∧ 0 < turn a b s := by
  rw [passesAbove_iff_turn (by exact hab), turn_transpose, neg_lt_zero]
  rfl

/-- out of the span of the spot an edge counts on its side if it is to the right -/
theorem turn_pos_iff_of_side (hs : ¬ OnSegment a b s) (h₁ : a.z < s.z) (h₂ : s.z ≤ b.z)
    (hside : a.x < s.x ↔ b.x < s.x) : 0 < turn a b s ↔ ¬ b.x < s.x := by
  have key : turn a b s = (s.z - a.z) * (b.x - s.x) + (b.z - s.z) * (a.x - s.x) := by
    rw [turn]
    ring
  have hne : turn a b s ≠ 0 := by
    intro h
    refine hs (onSegment_transpose_iff.mp (onSegment_of_turn h₁ h₂ ?_))
    rw [turn_transpose, h, neg_zero]
  constructor
  · intro h hb
    have := mul_neg_of_pos_of_neg (sub_pos.mpr h₁) (sub_neg.mpr hb)
    have := mul_nonpos_of_nonneg_of_nonpos (sub_nonneg.mpr h₂)
      (sub_neg.mpr (hside.mpr hb)).le
    linarith
  · intro hb
    have := mul_nonneg (sub_pos.mpr h₁).le (sub_nonneg.mpr (not_lt.mp hb))
    have := mul_nonneg (sub_nonneg.mpr h₂) (sub_nonneg.mpr (not_lt.mp (hside.not.mpr hb)))
    exact lt_of_le_of_ne (by linarith) hne.symm

/-- the ends of an edge out of its span are on one side of the spot -/
theorem passing_of_side (hside : a.x < s.x ↔ b.x < s.x) : passing a b s = 0 := by
  refine if_neg fun h => ?_
  rcases min_lt_iff.mp h.1 with k | k
  · exact absurd h.2.1 (not_le.mpr (max_lt k (hside.mp k)))
  · exact absurd h.2.1 (not_le.mpr (max_lt (hside.mpr k) k))

theorem passing_add_passing_of_side (hs : ¬ OnSegment a b s) (hside : a.x < s.x ↔ b.x < s.x) :
    passing a b s + passing a.transpose b.transpose s.transpose =
      quarterMark s a + quarterMark s b := by
  wlog hab : a.z ≤ b.z generalizing a b
  · rw [passing_comm a b, passing_comm a.transpose, add_comm (quarterMark s a)]
    exact this (fun h => hs h.symm) hside.symm (le_of_not_ge hab)
  rw [passing_of_side hside, zero_add]
  unfold passing quarterMark
  simp only [passesAbove_transpose_iff hab, ← not_lt (b := s.x), ← not_lt (b := s.z), hside]
  by_cases hspan : a.z < s.z ∧ ¬ b.z < s.z
  · have hright := turn_pos_iff_of_side hs hspan.1 (not_lt.mp hspan.2) hside
    simp [hspan.1, hspan.2, hright]
  · have hlevel : a.z < s.z ↔ b.z < s.z := by
      constructor
      · intro h
        exact not_not.mp fun k => hspan ⟨h, k⟩
      · intro h
        exact hab.trans_lt h
    simp only [hspan, false_and, if_false]
    simp only [hlevel]
    exact (CharTwo.add_self_eq_zero (R := ZMod 2) _).symm

theorem quarterMark_transpose (s v : Spot) :
    quarterMark s.transpose v.transpose = quarterMark s v := by
  unfold quarterMark Spot.transpose
  simp only [and_comm]

/-- The edge counts upward or to the right, or both ways, or neither.  In the span of the spot both
ways it rises or falls: an edge that rises is above the spot or to its right and ends in the quarter,
one that falls is both or neither and has no end there. -/
theorem passing_add_passing_transpose (hs : ¬ OnSegment a b s) :
    passing a b s + passing a.transpose b.transpose s.transpose =
      quarterMark s a + quarterMark s b := by
  by_cases hside : a.x < s.x ↔ b.x < s.x
  · exact passing_add_passing_of_side hs hside
  by_cases hlevel : a.z < s.z ↔ b.z < s.z
  · have h := passing_add_passing_of_side (onSegment_transpose_iff.not.mpr hs) hlevel
    rw [quarterMark_transpose, quarterMark_transpose, add_comm] at h
    exact h
  wlog hab : a.x ≤ b.x generalizing a b
  · rw [passing_comm a b, passing_comm a.transpose, add_comm (quarterMark s a)]
    exact this (fun h => hs h.symm) (fun h => hside h.symm) (fun h => hlevel h.symm)
      (le_of_not_ge hab)
  have hx : a.x < s.x ∧ s.x ≤ b.x := by
    by_cases h : a.x < s.x
    · exact ⟨h, not_lt.mp fun k => hside ⟨fun _ => k, fun _ => h⟩⟩
    · exact absurd ⟨fun k => absurd k h, fun k => hab.trans_lt k⟩ hside
  have hne : turn a b s ≠ 0 := fun h => hs (onSegment_of_turn hx.1 hx.2 h)
  unfold passing quarterMark
  simp only [passesAbove_iff_turn hab, hx, true_and, not_le.mpr hx.1, false_and, if_false, zero_add]
  by_cases hrise : a.z < s.z
  · have hz : s.z ≤ b.z := not_lt.mp fun k => hlevel ⟨fun _ => k, fun _ => hrise⟩
    simp only [passesAbove_transpose_iff (hrise.le.trans hz), hrise, hz, true_and, if_true]
    rcases lt_or_gt_of_ne hne with h | h
    · rw [if_pos h, if_neg h.not_gt, add_zero]
    · rw [if_neg h.not_gt, if_pos h, zero_add]
  · have hz : b.z < s.z := not_le.mp fun k => hlevel
      ⟨fun h => absurd h hrise, fun h => absurd k (not_le.mpr h)⟩
    have hfall := passesAbove_transpose_iff (s := s) (hz.le.trans (not_lt.mp hrise))
    rw [passesAbove_comm, turn_comm, neg_pos] at hfall
    simp only [hfall, hz, not_lt.mp hrise, not_le.mpr hz, and_true, true_and, if_false]
    exact CharTwo.add_self_eq_zero (R := ZMod 2) _

end

/-! ## around an outline -/

theorem edges_map (f : Point → Point) (outline : List Point) :
    edges (outline.map f) = (edges outline).map fun e => (f e.1, f e.2) := by
  rw [edges, edges, ← List.map_tail, ← List.map_take, ← List.map_append, List.zip_map]
  rfl

/-- a map of the plane keeps what an outline covers if it keeps its segments and changes the
crossings of an edge by a mark of its ends -/
theorem Covers.map_iff {f : Point → Point} {outline : List Point} {s t : Spot} (mark : Spot → ZMod 2)
    (hon : ∀ e ∈ edges outline,
      (OnSegment (f e.1).spot (f e.2).spot t ↔ OnSegment e.1.spot e.2.spot s))
    (hpass : ∀ e ∈ edges outline, ¬ OnSegment e.1.spot e.2.spot s →
      passing e.1.spot e.2.spot s + passing (f e.1).spot (f e.2).spot t =
        mark e.1.spot + mark e.2.spot) :
    Covers (outline.map f) t ↔ Covers outline s := by
  have honOutline : OnOutline (outline.map f) t ↔ OnOutline outline s := by
    unfold OnOutline
    rw [edges_map]
    simp only [List.mem_map, exists_exists_and_eq_and]
    exact exists_congr fun e => and_congr_right fun he => hon e he
  by_cases hout : OnOutline outline s
  · exact ⟨fun _ => Or.inl hout, fun _ => Or.inl (honOutline.mpr hout)⟩
  have hcross : (crossings outline s : ZMod 2) = crossings (outline.map f) t := by
    refine CharTwo.add_eq_zero.mp ?_
    rw [cast_crossings, cast_crossings, edges_map, List.map_map, ← List.sum_map_add]
    refine (congrArg List.sum (List.map_congr_left fun e he =>
      hpass e he fun h => hout ⟨e, he, h⟩)).trans ?_
    exact sum_ends outline fun p => mark p.spot
  exact covers_congr honOutline hcross.symm

/-! ## reflections of the grid -/

namespace Point

/-- the two axes change places -/
def transpose (p : Point) : Point := ⟨p.z, p.x⟩

/-- mirrored in the axis of `x` -/
def flipZ (p : Point) : Point := ⟨p.x, -p.z⟩

/-- mirrored in the axis of `z` -/
def flipX (p : Point) : Point := ⟨-p.x, p.z⟩

theorem flipX_eq (p : Point) : p.flipX = p.transpose.flipZ.transpose := rfl

end Point

theorem toInt_neg_of_ne {n : Int32} (h : n ≠ Int32.minValue) : (-n).toInt = -n.toInt := by
  have hmin : n.toInt ≠ Int32.minValue.toInt := fun k => h (Int32.toInt_inj.mp k)
  have h₁ := Int32.le_toInt n
  have h₂ := Int32.toInt_lt n
  have h₃ : Int32.minValue.toInt = -2147483648 := by decide
  rw [Int32.toInt_neg]
  exact Int.bmod_eq_of_le (by omega) (by omega)

theorem spot_flipZ {p : Point} (h : p.z ≠ Int32.minValue) : p.flipZ.spot = p.spot.flip := by
  unfold Point.spot Point.flipZ Spot.flip
  simp only [toInt_neg_of_ne h, Int.cast_neg]

theorem polygonContains_transpose (outline : List Point) (p : Point) :
    polygonContains (outline.map Point.transpose) p.z p.x = polygonContains outline p.x p.z := by
  rw [Bool.eq_iff_iff, polygonContains_iff outline p]
  refine (polygonContains_iff (outline.map Point.transpose) p.transpose).trans ?_
  refine Covers.map_iff (quarterMark p.spot) ?_ ?_
  · intro e _
    exact onSegment_transpose_iff (a := e.1.spot) (b := e.2.spot) (s := p.spot)
  · intro e _ hs
    exact passing_add_passing_transpose hs

/-- the ends of an edge are vertices -/
theorem mem_of_edge {outline : List Point} {e : Point × Point} (he : e ∈ edges outline) :
    e.1 ∈ outline ∧ e.2 ∈ outline := by
  constructor
  · rw [← edges_map_fst outline]
    exact List.mem_map_of_mem he
  · exact (edges_map_snd_perm outline).mem_iff.mp (List.mem_map_of_mem he)

theorem polygonContains_flipZ {outline : List Point} {p : Point}
    (h : ∀ q ∈ p :: outline, q.z ≠ Int32.minValue) :
    polygonContains (outline.map Point.flipZ) p.x (-p.z) = polygonContains outline p.x p.z := by
  rw [Bool.eq_iff_iff, polygonContains_iff outline p]
  refine (polygonContains_iff (outline.map Point.flipZ) p.flipZ).trans ?_
  have hp := spot_flipZ (h p List.mem_cons_self)
  have hends : ∀ e ∈ edges outline,
      e.1.flipZ.spot = e.1.spot.flip ∧ e.2.flipZ.spot = e.2.spot.flip := by
    intro e he
    obtain ⟨h₁, h₂⟩ := mem_of_edge he
    exact ⟨spot_flipZ (h e.1 (List.mem_cons_of_mem p h₁)),
      spot_flipZ (h e.2 (List.mem_cons_of_mem p h₂))⟩
  refine Covers.map_iff (leftMark p.spot) ?_ ?_
  · intro e he
    rw [(hends e he).1, (hends e he).2, hp]
    exact onSegment_flip_iff
  · intro e he hs
    rw [(hends e he).1, (hends e he).2, hp]
    exact passing_add_passing_flip hs

/-- mirrored in one axis is mirrored in the other one, with the axes changed before and after it -/
theorem polygonContains_flipX {outline : List Point} {p : Point}
    (h : ∀ q ∈ p :: outline, q.x ≠ Int32.minValue) :
    polygonContains (outline.map Point.flipX) (-p.x) p.z = polygonContains outline p.x p.z := by
  have hmap : outline.map Point.flipX =
      ((outline.map Point.transpose).map Point.flipZ).map Point.transpose := by
    rw [List.map_map, List.map_map]
    exact List.map_congr_left fun q _ => q.flipX_eq
  have hz : ∀ q ∈ p.transpose :: outline.map Point.transpose, q.z ≠ Int32.minValue := by
    intro q hq
    rw [← List.map_cons] at hq
    obtain ⟨r, hr, rfl⟩ := List.mem_map.mp hq
    exact h r hr
  calc polygonContains (outline.map Point.flipX) (-p.x) p.z
      = polygonContains ((outline.map Point.transpose).map Point.flipZ) p.z (-p.x) := by
        rw [hmap]
        exact polygonContains_transpose _ p.transpose.flipZ
    _ = polygonContains (outline.map Point.transpose) p.z p.x := polygonContains_flipZ hz
    _ = polygonContains outline p.x p.z := polygonContains_transpose outline p

/-- **Containment does not depend on the direction of the count**: it stays when the axes change
places, and when the coordinates of one axis are negated, wherever they can be. -/
theorem polygonContains_reflect (outline : List Point) (p : Point) :
    polygonContains (outline.map Point.transpose) p.z p.x = polygonContains outline p.x p.z ∧
    ((∀ q ∈ p :: outline, q.x ≠ Int32.minValue) →
      polygonContains (outline.map Point.flipX) (-p.x) p.z = polygonContains outline p.x p.z) ∧
    ((∀ q ∈ p :: outline, q.z ≠ Int32.minValue) →
      polygonContains (outline.map Point.flipZ) p.x (-p.z) = polygonContains outline p.x p.z) :=
  ⟨polygonContains_transpose outline p, polygonContains_flipX, polygonContains_flipZ⟩

/-- a comb of two teeth; a side of the notch is straight above the point `(4, 1)` -/
def comb : List Point := [⟨0, 0⟩, ⟨8, 0⟩, ⟨8, 6⟩, ⟨4, 6⟩, ⟨4, 2⟩, ⟨2, 2⟩, ⟨2, 6⟩, ⟨0, 6⟩]

theorem polygonContains_reflect_comb :
    polygonContains (comb.map Point.transpose) 1 4 = polygonContains comb 4 1 ∧
    polygonContains (comb.map Point.flipX) (-4) 1 = polygonContains comb 4 1 ∧
    polygonContains (comb.map Point.flipZ) 4 (-1) = polygonContains comb 4 1 :=
  ⟨(polygonContains_reflect comb ⟨4, 1⟩).1,
    (polygonContains_reflect comb ⟨4, 1⟩).2.1 (by decide),
    (polygonContains_reflect comb ⟨4, 1⟩).2.2 (by decide)⟩

end Precinct.Plane
