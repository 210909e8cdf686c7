import Mathlib
import Precinct.Proofs.Plane.Parity

/-!
# Containment in a polygon is even-odd

**`polygonContains_iff`**: the walk around an outline says yes for exactly the grid points that the
outline covers, whatever the outline: concave, crossing itself, with repeated or collinear vertices.

* `Struck`          an edge at which the walk stops and says yes: it ends at the point, or the point
                    is on its line, in its span and between its heights;
* `sweep_eq`        the walk stops at a struck edge or else ends with the parity of the crossings;
* `OnSegment.struck`  an edge that goes through the point is struck, but for one that begins there:
                    the edge before it is struck then, for it ends there.

The test between the heights is an equality of two comparisons.  On an edge that descends it fails
at both ends, which is why the vertices are asked for first.
-/

namespace Precinct.Plane

/-! ## integers and spots -/

theorem x_lt_iff {p q : Point} : p.spot.x < q.spot.x ↔ p.x < q.x := by
  rw [Int32.lt_iff_toInt_lt]
  exact Int.cast_lt

theorem x_le_iff {p q : Point} : p.spot.x ≤ q.spot.x ↔ p.x ≤ q.x := by
  rw [Int32.le_iff_toInt_le]
  exact Int.cast_le

theorem z_le_iff {p q : Point} : p.spot.z ≤ q.spot.z ↔ p.z ≤ q.z := by
  rw [Int32.le_iff_toInt_le]
  exact Int.cast_le

theorem spot_inj {p q : Point} : p.spot = q.spot ↔ p = q := by
  constructor
  · intro h
    have hx : (p.x.toInt : ℚ) = q.x.toInt := congrArg Spot.x h
    have hz : (p.z.toInt : ℚ) = q.z.toInt := congrArg Spot.z h
    obtain ⟨px, pz⟩ := p
    obtain ⟨qx, qz⟩ := q
    rw [Int.cast_inj, Int32.toInt_inj] at hx hz
    rw [show px = qx from hx, show pz = qz from hz]
  · rintro rfl
    rfl

theorem cast_cross (a b p : Point) : ((cross a b p.x.toInt p.z.toInt : ℤ) : ℚ) =
    (p.spot.z - a.spot.z) * (b.spot.x - a.spot.x) -
      (b.spot.z - a.spot.z) * (p.spot.x - a.spot.x) := by
  rw [cross]
  push_cast
  rfl

/-- from left to right the sign of the triangle says whether the line is above the point -/
theorem cross_neg_iff {a b : Point} (h : a.spot.x < b.spot.x) (p : Point) :
    cross a b p.x.toInt p.z.toInt < 0 ↔ p.spot.z < height a.spot b.spot p.spot.x := by
  have hpos : 0 < b.spot.x - a.spot.x := sub_pos.mpr h
  rw [← Int.cast_lt (R := ℚ), cast_cross, Int.cast_zero, height, div_mul_eq_mul_div,
    ← sub_lt_iff_lt_add', lt_div_iff₀ hpos, sub_neg, mul_comm (p.spot.x - a.spot.x)]

theorem cross_eq_zero_iff {a b : Point} (h : a.spot.x < b.spot.x) (p : Point) :
    cross a b p.x.toInt p.z.toInt = 0 ↔ p.spot.z = height a.spot b.spot p.spot.x := by
  have hpos : 0 < b.spot.x - a.spot.x := sub_pos.mpr h
  rw [← Int.cast_inj (α := ℚ), cast_cross, Int.cast_zero, height, div_mul_eq_mul_div,
    ← sub_eq_iff_eq_add', eq_div_iff hpos.ne', sub_eq_zero, mul_comm (p.spot.x - a.spot.x)]

/-! ## one edge -/

/-- the point is on the line from `a` to `b`, in its span, and the two comparisons of its height
agree -/
def Touches (a b p : Point) : Prop :=
  a.x ≤ p.x ∧ p.x ≤ b.x ∧ cross a b p.x.toInt p.z.toInt = 0 ∧
    decide (a.z ≤ p.z) = decide (p.z ≤ b.z)

instance (a b p : Point) : Decidable (Touches a b p) := inferInstanceAs (Decidable (_ ∧ _))

/-- the walk stops at the edge -/
def Struck (p : Point) (e : Point × Point) : Prop :=
  e.2 = p ∨ Touches (leftToRight e.1 e.2).1 (leftToRight e.1 e.2).2 p

instance (p : Point) (e : Point × Point) : Decidable (Struck p e) :=
  inferInstanceAs (Decidable (_ ∨ _))

section
variable {a b p : Point}

theorem Touches.onSegment (h : Touches a b p) : OnSegment a.spot b.spot p.spot := by
  obtain ⟨hax, hxb, hcross, hz⟩ := h
  rw [← x_le_iff] at hax hxb
  rw [decide_eq_decide, ← z_le_iff, ← z_le_iff] at hz
  rcases eq_or_lt_of_le (hax.trans hxb) with he | hlt
  · have hpx : p.spot.x = a.spot.x := le_antisymm (he ▸ hxb) hax
    rcases le_or_gt a.spot.z p.spot.z with h | h
    · exact onSegment_of_upright he hpx h (hz.mp h)
    · have h' : b.spot.z < p.spot.z := not_le.mp fun k => absurd (hz.mpr k) (not_le.mpr h)
      exact (onSegment_of_upright he.symm (hpx.trans he) h'.le h.le).symm
  · rw [cross_eq_zero_iff hlt] at hcross
    have hs : p.spot = ⟨p.spot.x, height a.spot b.spot p.spot.x⟩ := by rw [← hcross]
    rw [hs]
    exact onSegment_height hlt hax hxb

/-- an edge through a point that is no end of it touches it -/
theorem OnSegment.touches (hab : a.spot.x ≤ b.spot.x) (h : OnSegment a.spot b.spot p.spot) :
    p = a ∨ p = b ∨ Touches a b p := by
  obtain ⟨t, h0, h1, hx, hz⟩ := h
  have hax : a.spot.x ≤ p.spot.x := by
    rw [hx]
    exact le_add_of_nonneg_right (mul_nonneg h0 (sub_nonneg.mpr hab))
  have hxb : p.spot.x ≤ b.spot.x := by
    have := mul_le_mul_of_nonneg_right h1 (sub_nonneg.mpr hab)
    linarith
  have hcross : cross a b p.x.toInt p.z.toInt = 0 := by
    rw [← Int.cast_inj (α := ℚ), cast_cross, Int.cast_zero, hx, hz]
    ring
  rcases eq_or_lt_of_le h0 with rfl | h0
  · left
    rw [← spot_inj]
    cases hp : p.spot
    rw [hp] at hx hz
    simp only [zero_mul, add_zero] at hx hz
    rw [hx, hz]
  rcases eq_or_lt_of_le h1 with rfl | h1
  · right; left
    rw [← spot_inj]
    cases hp : p.spot
    rw [hp] at hx hz
    simp only [one_mul, add_sub_cancel] at hx hz
    rw [hx, hz]
  · right; right
    refine ⟨x_le_iff.mp hax, x_le_iff.mp hxb, hcross, ?_⟩
    -- strictly between the ends the two comparisons say which end is the lower one
    rw [decide_eq_decide, ← z_le_iff, ← z_le_iff, hz]
    constructor
    · intro h
      have hz' : 0 ≤ b.spot.z - a.spot.z := by
        by_contra hn
        have := mul_neg_of_pos_of_neg h0 (not_le.mp hn)
        linarith
      have := mul_le_mul_of_nonneg_right h1.le hz'
      linarith
    · intro h
      have hz' : 0 ≤ b.spot.z - a.spot.z := by
        by_contra hn
        have := mul_lt_mul_of_neg_right h1 (not_le.mp hn)
        linarith
      exact le_add_of_nonneg_right (mul_nonneg h0.le hz')

/-- an edge from left to right that flips the parity passes above the point -/
theorem passesAbove_iff (hab : a.spot.x ≤ b.spot.x) :
    PassesAbove a.spot b.spot p.spot ↔
      a.x ≤ p.x ∧ p.x ≤ b.x ∧ cross a b p.x.toInt p.z.toInt < 0 ∧ a.x ≠ p.x := by
  unfold PassesAbove
  rw [min_eq_left hab, max_eq_right hab, ← x_le_iff, ← x_le_iff]
  constructor
  · rintro ⟨h₁, h₂, h₃⟩
    refine ⟨h₁.le, h₂, (cross_neg_iff (h₁.trans_le h₂) p).mpr h₃, fun he => ?_⟩
    exact absurd (x_lt_iff.mp h₁) (by rw [he]; exact Int32.lt_irrefl)
  · rintro ⟨h₁, h₂, h₃, hne⟩
    have hlt : a.spot.x < p.spot.x := by
      refine lt_of_le_of_ne h₁ fun he => hne ?_
      exact Int32.toInt_inj.mp (Int.cast_inj.mp he)
    exact ⟨hlt, h₂, (cross_neg_iff (hlt.trans_le h₂) p).mp h₃⟩

end

theorem leftToRight_le (p q : Point) :
    (leftToRight p q).1.spot.x ≤ (leftToRight p q).2.spot.x := by
  unfold leftToRight
  split
  · rename_i h
    exact (x_lt_iff.mpr h).le
  · rename_i h
    exact not_lt.mp (x_lt_iff.not.mpr h)

theorem leftToRight_of_symm {r : Spot → Spot → Prop} (hr : ∀ a b, r a b ↔ r b a) (p q : Point) :
    r (leftToRight p q).1.spot (leftToRight p q).2.spot ↔ r p.spot q.spot := by
  unfold leftToRight
  split
  · rfl
  · exact hr _ _

theorem Struck.onSegment {p : Point} {e : Point × Point} (h : Struck p e) :
    OnSegment e.1.spot e.2.spot p.spot := by
  rcases h with rfl | h
  · exact onSegment_right _ _
  · exact (leftToRight_of_symm (r := fun a b => OnSegment a b p.spot)
      (fun _ _ => ⟨OnSegment.symm, OnSegment.symm⟩) e.1 e.2).mp h.onSegment

theorem OnSegment.struck {p : Point} {e : Point × Point}
    (h : OnSegment e.1.spot e.2.spot p.spot) : p = e.1 ∨ Struck p e := by
  have h' := (leftToRight_of_symm (r := fun a b => OnSegment a b p.spot)
    (fun _ _ => ⟨OnSegment.symm, OnSegment.symm⟩) e.1 e.2).mpr h
  have hends : p = (leftToRight e.1 e.2).1 ∨ p = (leftToRight e.1 e.2).2 → p = e.1 ∨ p = e.2 := by
    unfold leftToRight
    split
    · exact id
    · exact Or.symm
  rcases h'.touches (leftToRight_le e.1 e.2) with he | he | ht
  · exact (hends (Or.inl he)).imp_right fun k => Or.inl k.symm
  · exact (hends (Or.inr he)).imp_right fun k => Or.inl k.symm
  · exact Or.inr (Or.inr ht)

/-! ## the walk -/

theorem sweep_cons (p prev cur : Point) (rest : List Point) (inside : Bool) :
    sweep p.x p.z prev (cur :: rest) inside =
      if Struck p (prev, cur) then true
      else sweep p.x p.z cur rest
        (inside ^^ decide (PassesAbove prev.spot cur.spot p.spot)) := by
  obtain ⟨a, b, hab⟩ : ∃ a b, leftToRight prev cur = (a, b) := ⟨_, _, rfl⟩
  have hpass := (leftToRight_of_symm (r := fun a b => PassesAbove a b p.spot)
    (fun a b => passesAbove_comm a b _) prev cur).symm.trans
    (passesAbove_iff (leftToRight_le prev cur))
  have hstruck : Struck p (prev, cur) ↔ cur = p ∨ Touches a b p := by
    unfold Struck
    rw [hab]
  have hcur : (cur.x = p.x ∧ cur.z = p.z) ↔ cur = p := by
    obtain ⟨cx, cz⟩ := cur
    obtain ⟨px, pz⟩ := p
    simp only [Point.mk.injEq]
  rw [hab] at hpass
  rw [sweep, hab, if_congr hcur rfl rfl, if_congr hstruck rfl rfl, decide_eq_decide.mpr hpass]
  unfold Touches
  by_cases hc : cur = p
  · rw [if_pos hc, if_pos (Or.inl hc)]
  rw [if_neg hc]
  by_cases hs : a.x ≤ p.x ∧ p.x ≤ b.x
  · obtain ⟨h₁, h₂⟩ := hs
    simp only [hc, h₁, h₂, true_and, and_self, if_true, false_or]
    by_cases h0 : cross a b p.x.toInt p.z.toInt = 0
    · simp [h0]
    · by_cases hn : cross a b p.x.toInt p.z.toInt < 0 ∧ a.x ≠ p.x
      · simp [h0, hn]
      · simp [h0, hn]
  · rw [if_neg fun h => h.elim hc fun k => hs ⟨k.1, k.2.1⟩,
      decide_eq_false fun k => hs ⟨k.1, k.2.1⟩, Bool.xor_false]
    exact if_neg hs

/-- the walk stops at a struck edge or else ends with the parity of the crossings -/
theorem sweep_eq (p prev : Point) (rest : List Point) (inside : Bool) :
    sweep p.x p.z prev rest inside = true ↔
      (∃ e ∈ (prev :: rest).zip rest, Struck p e) ∨
        Odd (inside.toNat + ((prev :: rest).zip rest).countP fun e =>
          decide (PassesAbove e.1.spot e.2.spot p.spot)) := by
  induction rest generalizing prev inside with
  | nil => cases inside <;> simp [sweep]
  | cons cur rest ih =>
    rw [sweep_cons, List.zip_cons_cons, List.countP_cons]
    by_cases hs : Struck p (prev, cur)
    · rw [if_pos hs]
      exact ⟨fun _ => Or.inl ⟨_, List.mem_cons_self, hs⟩, fun _ => rfl⟩
    · rw [if_neg hs, ih]
      refine or_congr ?_ ?_
      · simp only [List.mem_cons, exists_eq_or_imp, hs, false_or]
      · generalize List.countP _ _ = n
        by_cases hp : PassesAbove prev.spot cur.spot p.spot
        · rw [decide_eq_true hp, Bool.xor_true, if_pos rfl, Nat.odd_iff, Nat.odd_iff]
          cases inside <;> simp only [Bool.not_false, Bool.not_true, Bool.toNat_true,
            Bool.toNat_false] <;> omega
        · rw [decide_eq_false hp, Bool.xor_false, if_neg Bool.false_ne_true, Nat.add_zero]

/-! ## the outline -/

/-- the vertices from first to last and then on to a further one -/
theorem zip_concat (p : Point) (ps : List Point) (r : Point) :
    (p :: ps).zip (ps ++ [r]) =
      (p :: ps).zip ps ++ [((p :: ps).getLast (List.cons_ne_nil p ps), r)] := by
  induction ps generalizing p with
  | nil => rfl
  | cons p' ps ih =>
    rw [List.cons_append, List.zip_cons_cons, ih, List.zip_cons_cons, List.cons_append,
      List.getLast_cons (List.cons_ne_nil p' ps)]

/-- the walk sees the edges of the outline, the last of them first -/
theorem edges_perm_walk (q : Point) (qs : List Point) :
    (edges (q :: qs)).Perm
      (((q :: qs).getLast (List.cons_ne_nil q qs) :: q :: qs).zip (q :: qs)) := by
  have h : edges (q :: qs) = (q :: qs).zip (qs ++ [q]) := rfl
  rw [h, zip_concat, List.zip_cons_cons]
  exact List.perm_append_singleton _ _

/-- **Containment in a polygon is even-odd**: the point is on the outline, or an odd number of
edges pass above it. -/
theorem polygonContains_iff (outline : List Point) (p : Point) :
    polygonContains outline p.x p.z = true ↔ Covers outline p.spot := by
  cases outline with
  | nil =>
    refine ⟨fun h => absurd h Bool.false_ne_true, ?_⟩
    rintro (⟨e, he, _⟩ | h)
    · exact absurd he List.not_mem_nil
    · exact absurd h Nat.not_odd_zero
  | cons q qs =>
    have hwalk := edges_perm_walk q qs
    unfold polygonContains
    rw [List.getLast?_eq_some_getLast (List.cons_ne_nil q qs)]
    simp only
    rw [sweep_eq, Bool.toNat_false, Nat.zero_add, ← hwalk.countP_eq]
    refine or_congr_left ?_
    constructor
    · rintro ⟨e, he, hs⟩
      exact ⟨e, hwalk.mem_iff.mpr he, hs.onSegment⟩
    · rintro ⟨e, he, hs⟩
      rcases hs.struck with rfl | hs
      · -- the edge before this one ends where it begins
        have hp : e.1 ∈ q :: qs := by
          rw [← edges_map_fst (q :: qs)]
          exact List.mem_map_of_mem he
        rw [← (edges_map_snd_perm (q :: qs)).mem_iff] at hp
        obtain ⟨f, hf, hfe⟩ := List.mem_map.mp hp
        exact ⟨f, hwalk.mem_iff.mp hf, Or.inl hfe⟩
      · exact ⟨e, hwalk.mem_iff.mp he, hs⟩

end Precinct.Plane
