import Mathlib
import Precinct.Proofs.Plane.Reflection

/-!
# Containment depends on the outline, not on its listing

**`polygonContains_listing`**: the list of vertices may begin at any of them, run the other way
round, or name a further grid point of an edge between the ends of that edge; the answer stays.

* `edges_rotate`, `edges_reverse_perm`  what becomes of the edges when the list is turned or reversed;
* `onSegment_split`, `passing_split`    an edge cut at a point of its own covers the same spots, and
                       the pieces pass above a spot as often as the whole.  The cut belongs to one
                       of the two half-open spans, so not even a spot straight below it is special;
* `covers_cons`        the case of the last edge, cut by a new first vertex.  Every edge is the last
                       one of the list that begins behind it.
-/

namespace Precinct.Plane

/-! ## an edge cut in two -/

section
variable {a b v s : Spot}

/-- an edge is the two pieces it is cut into -/
theorem onSegment_split (h : OnSegment a b v) :
    OnSegment a b s ↔ OnSegment a v s ∨ OnSegment v b s := by
  constructor
  · rintro ⟨u, k0, k1, kx, kz⟩
    obtain ⟨t, h0, h1, hx, hz⟩ := h
    rcases le_or_gt u t with hut | htu
    · left
      rcases eq_or_lt_of_le h0 with rfl | hpos
      · obtain rfl : u = 0 := le_antisymm hut k0
        exact ⟨0, le_rfl, zero_le_one, by rw [kx]; ring, by rw [kz]; ring⟩
      · refine ⟨u / t, div_nonneg k0 h0, (div_le_one hpos).mpr hut, ?_, ?_⟩
        · rw [kx, hx]; field_simp; ring
        · rw [kz, hz]; field_simp; ring
    · right
      have hpos : 0 < 1 - t := by linarith
      refine ⟨(u - t) / (1 - t), div_nonneg (by linarith) hpos.le,
        (div_le_one hpos).mpr (by linarith), ?_, ?_⟩
      · rw [kx, hx]; field_simp; ring
      · rw [kz, hz]; field_simp; ring
  · rintro (hs | hs)
    · exact h.trans hs.symm
    · exact (h.symm.trans hs).symm

/-- the cut belongs to the left piece -/
theorem passesAbove_cut (hab : a.x ≤ b.x) (h : OnSegment a b v) :
    (PassesAbove a v s ↔ PassesAbove a b s ∧ s.x ≤ v.x) ∧
      (PassesAbove v b s ↔ PassesAbove a b s ∧ v.x < s.x) := by
  obtain ⟨t, h0, h1, hx, hz⟩ := h
  have hspan := min_le_mean (x := a.x) (y := b.x) h0 h1
  rw [← hx, min_eq_left hab, max_eq_right hab] at hspan
  have hleft : turn a v s = t * turn a b s := by
    rw [turn, turn, hx, hz]; ring
  have hright : turn v b s = (1 - t) * turn a b s := by
    rw [turn, turn, hx, hz]; ring
  rw [passesAbove_iff_turn hab, passesAbove_iff_turn hspan.1, passesAbove_iff_turn hspan.2, hleft,
    hright]
  constructor
  · constructor
    · rintro ⟨⟨h₁, h₂⟩, hturn⟩
      exact ⟨⟨⟨h₁, h₂.trans hspan.2⟩, neg_of_mul_neg_right hturn h0⟩, h₂⟩
    · rintro ⟨⟨⟨h₁, -⟩, hturn⟩, h₂⟩
      have hpos : t ≠ 0 := by
        rintro rfl
        rw [zero_mul, add_zero] at hx
        exact absurd h₂ (not_le.mpr (hx ▸ h₁))
      exact ⟨⟨h₁, h₂⟩, mul_neg_of_pos_of_neg (lt_of_le_of_ne h0 hpos.symm) hturn⟩
  · constructor
    · rintro ⟨⟨h₁, h₂⟩, hturn⟩
      exact ⟨⟨⟨hspan.1.trans_lt h₁, h₂⟩, neg_of_mul_neg_right hturn (sub_nonneg.mpr h1)⟩, h₁⟩
    · rintro ⟨⟨⟨-, h₂⟩, hturn⟩, h₁⟩
      have hpos : t ≠ 1 := by
        rintro rfl
        rw [one_mul, add_sub_cancel] at hx
        exact absurd h₂ (not_le.mpr (hx ▸ h₁))
      exact ⟨⟨h₁, h₂⟩, mul_neg_of_pos_of_neg (sub_pos.mpr (lt_of_le_of_ne h1 hpos)) hturn⟩

/-- the pieces pass above a spot as often as the whole -/
theorem passing_split (h : OnSegment a b v) (s : Spot) :
    passing a b s = passing a v s + passing v b s := by
  wlog hab : a.x ≤ b.x generalizing a b
  · rw [passing_comm a b, passing_comm a v, passing_comm v b, add_comm]
    exact this h.symm (le_of_not_ge hab)
  obtain ⟨hleft, hright⟩ := passesAbove_cut (s := s) hab h
  unfold passing
  simp only [hleft, hright]
  rcases le_or_gt s.x v.x with hv | hv
  · simp only [hv, hv.not_gt, and_true, and_false, if_false, add_zero]
  · simp only [hv, hv.not_ge, and_true, and_false, if_false, zero_add]

end

/-! ## edges of a list that is told otherwise -/

theorem edges_eq_zip_rotate (outline : List Point) : edges outline = outline.zip (outline.rotate 1) := by
  cases outline with
  | nil => rfl
  | cons p ps => rw [List.rotate_cons_succ, List.rotate_zero]; rfl

/-- the list that begins elsewhere has the same edges, beginning there -/
theorem edges_rotate (outline : List Point) (n : ℕ) :
    edges (outline.rotate n) = (edges outline).rotate n := by
  rw [edges_eq_zip_rotate, edges_eq_zip_rotate, List.rotate_rotate, Nat.add_comm, ← List.rotate_rotate]
  exact (List.zipWith_rotate_distrib _ _ _ n (List.length_rotate _ _).symm).symm

/-- the list in the opposite order has every edge turned round -/
theorem edges_reverse_perm (outline : List Point) :
    (edges outline.reverse).Perm ((edges outline).map Prod.swap) := by
  cases outline with
  | nil => rfl
  | cons p ps =>
    have hturned : (p :: ps).reverse = (p :: ps.reverse).rotate 1 := by
      rw [List.reverse_cons, List.rotate_cons_succ, List.rotate_zero]
    have hback : edges (p :: ps.reverse) = ((edges (p :: ps)).map Prod.swap).reverse := by
      have hlen : (ps ++ [p]).length = (p :: ps).length := by
        rw [List.length_append, List.length_singleton, List.length_cons]
      have hedges : edges (p :: ps) = (p :: ps).zip (ps ++ [p]) := rfl
      rw [hedges, List.zip_swap, List.zip_eq_zipWith, List.reverse_zipWith hlen, List.reverse_concat,
        List.reverse_cons]
      rfl
    rw [hturned, edges_rotate, hback]
    exact (List.rotate_perm _ 1).trans (List.reverse_perm _)

theorem covers_rotate (outline : List Point) (n : ℕ) (s : Spot) :
    Covers (outline.rotate n) s ↔ Covers outline s := by
  refine covers_congr ?_ ?_
  · simp only [OnOutline, edges_rotate, List.mem_rotate]
  · rw [cast_crossings, cast_crossings, edges_rotate, ((edges outline).rotate_perm n |>.map _).sum_eq]

theorem covers_reverse (outline : List Point) (s : Spot) :
    Covers outline.reverse s ↔ Covers outline s := by
  have hperm := edges_reverse_perm outline
  refine covers_congr ?_ ?_
  · simp only [OnOutline, hperm.mem_iff, List.mem_map, exists_exists_and_eq_and]
    exact exists_congr fun e => and_congr_right fun _ => ⟨OnSegment.symm, OnSegment.symm⟩
  · rw [cast_crossings, cast_crossings, (hperm.map _).sum_eq, List.map_map]
    exact congrArg List.sum (List.map_congr_left fun e _ => passing_comm _ _ _)

/-- a new first vertex on the last edge cuts that edge -/
theorem covers_cons {outline : List Point} {e : Point × Point} {v : Point}
    (he : (edges outline).getLast? = some e) (hv : OnSegment e.1.spot e.2.spot v.spot) (s : Spot) :
    Covers (v :: outline) s ↔ Covers outline s := by
  cases outline with
  | nil => cases he
  | cons q qs =>
    generalize hlast : (q :: qs).getLast (List.cons_ne_nil q qs) = last at *
    have hold : edges (q :: qs) = (q :: qs).zip qs ++ [(last, q)] := by
      rw [← hlast]
      exact zip_concat q qs q
    have hnew : edges (v :: q :: qs) = (v, q) :: ((q :: qs).zip qs ++ [(last, v)]) := by
      rw [← hlast, ← zip_concat q qs v]
      rfl
    rw [hold, List.getLast?_concat] at he
    cases he
    refine covers_congr ?_ ?_
    · simp only [OnOutline, hold, hnew, List.mem_cons, List.mem_append, List.not_mem_nil, or_false,
        or_and_right, exists_or, exists_eq_left]
      rw [onSegment_split hv, or_left_comm, or_comm (a := OnSegment v.spot q.spot s)]
    · rw [cast_crossings, cast_crossings, hold, hnew]
      simp only [List.map_cons, List.map_append, List.map_nil, List.sum_cons, List.sum_append,
        List.sum_nil]
      rw [passing_split hv s]
      ring

/-! ## containment -/

theorem polygonContains_congr {l m : List Point} {p : Point}
    (h : Covers l p.spot ↔ Covers m p.spot) :
    polygonContains l p.x p.z = polygonContains m p.x p.z := by
  rw [Bool.eq_iff_iff, polygonContains_iff, polygonContains_iff, h]

/-- **Containment depends on the outline, not on its listing**: it does not matter which vertex comes
first, which way round they are listed, or whether a further point of an edge is listed between its
ends.  One on the last edge may be listed at either end of the list. -/
theorem polygonContains_listing (outline : List Point) (p : Point) :
    (∀ n, polygonContains (outline.rotate n) p.x p.z = polygonContains outline p.x p.z) ∧
    polygonContains outline.reverse p.x p.z = polygonContains outline p.x p.z ∧
    (∀ i e v, (edges outline)[i]? = some e → OnSegment e.1.spot e.2.spot v.spot →
      polygonContains (outline.insertIdx (i + 1) v) p.x p.z = polygonContains outline p.x p.z) ∧
    ∀ e v, (edges outline).getLast? = some e → OnSegment e.1.spot e.2.spot v.spot →
      polygonContains (v :: outline) p.x p.z = polygonContains outline p.x p.z := by
  have hrotate : ∀ l n, polygonContains (l.rotate n) p.x p.z = polygonContains l p.x p.z :=
    fun l n => polygonContains_congr (covers_rotate l n p.spot)
  refine ⟨hrotate outline, polygonContains_congr (covers_reverse outline p.spot), ?_,
    fun e v he hv => polygonContains_congr (covers_cons he hv p.spot)⟩
  intro i e v he hv
  have hi : i + 1 ≤ (edges outline).length := (List.getElem?_eq_some_iff.mp he).1
  have hlen : (edges outline).length = outline.length := by
    conv_rhs => rw [← edges_map_fst outline, List.length_map]
  -- in the list that begins behind the edge, the edge is the last one
  have hlast : (edges (outline.rotate (i + 1))).getLast? = some e := by
    rw [edges_rotate, List.rotate_eq_drop_append_take hi, List.getLast?_append, List.getLast?_take,
      if_neg (Nat.succ_ne_zero i), Nat.add_sub_cancel, he]
    rfl
  obtain ⟨before, after, hsplit, hbefore, hinsert⟩ :=
    List.exists_of_modifyTailIdx (List.cons v) (hlen ▸ hi)
  have hturned : (outline.insertIdx (i + 1) v).rotate (i + 1) = v :: outline.rotate (i + 1) := by
    rw [List.insertIdx, hinsert, hsplit, ← hbefore, List.rotate_append_length_eq,
      List.rotate_append_length_eq, List.cons_append]
  calc polygonContains (outline.insertIdx (i + 1) v) p.x p.z
      = polygonContains (v :: outline.rotate (i + 1)) p.x p.z := by rw [← hturned, hrotate]
    _ = polygonContains (outline.rotate (i + 1)) p.x p.z :=
        polygonContains_congr (covers_cons hlast hv p.spot)
    _ = polygonContains outline p.x p.z := hrotate outline (i + 1)

/-- a wedge; its last edge rises to the right and goes through `(2, 3)`, straight above `(2, 1)` -/
def wedge : List Point := [⟨0, 0⟩, ⟨6, 0⟩, ⟨6, 9⟩]

theorem onSegment_wedge :
    OnSegment (Point.spot ⟨6, 9⟩) (Point.spot ⟨0, 0⟩) (Point.spot ⟨2, 3⟩) := by
  refine ⟨2 / 3, by norm_num, by norm_num, ?_, ?_⟩
  · show (2 : ℚ) = 6 + 2 / 3 * (0 - 6)
    norm_num
  · show (3 : ℚ) = 9 + 2 / 3 * (0 - 9)
    norm_num

theorem polygonContains_listing_wedge :
    polygonContains (wedge.rotate 2) 2 1 = polygonContains wedge 2 1 ∧
    polygonContains wedge.reverse 2 1 = polygonContains wedge 2 1 ∧
    ((edges wedge)[2]? = some (⟨6, 9⟩, ⟨0, 0⟩) ∧
      OnSegment (Point.spot ⟨6, 9⟩) (Point.spot ⟨0, 0⟩) (Point.spot ⟨2, 3⟩)) ∧
    polygonContains (wedge.insertIdx 3 ⟨2, 3⟩) 2 1 = polygonContains wedge 2 1 ∧
    polygonContains (⟨2, 3⟩ :: wedge) 2 1 = polygonContains wedge 2 1 := by
  obtain ⟨hrotate, hreverse, hinsert, hcons⟩ := polygonContains_listing wedge ⟨2, 1⟩
  exact ⟨hrotate 2, hreverse, ⟨rfl, onSegment_wedge⟩, hinsert 2 _ _ rfl onSegment_wedge,
    hcons _ _ rfl onSegment_wedge⟩

end Precinct.Plane
