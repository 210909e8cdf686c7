import Mathlib
import Precinct.Plane.Segment
import Precinct.Proofs.Plane.Parity
import Precinct.Proofs.Plane.Wide
import Precinct.Proofs.World.Column

/-!
# Segments cross if they have a common spot, and only then

**`segmentsCross_of_meet`**: the test for two segments never misses a common spot, were it between
the grid points; **`meet_of_segmentsCross`**: it never finds one that is not there.
**`segmentsCross_iff_meet`** says both, of the test as it is worked out in 128 bits; and
`outlinesCross_of_meet` and `meet_of_outlinesCross` say so for two outlines.

* `turn`            twice the area of a triangle of spots, whose sign is the orientation;
* `turn_between`    the area is affine in its third corner.  At the common spot it is zero, so the
                    ends of the one segment are on different sides of the other, or on its line;
* `exists_end_on`   two segments on one line with a common spot: an end of one is on the other;
* `meet_of_orientation_ne`  the way back.  The second segment comes to the line of the first somewhere
                    between its own ends, for the signs there differ; and there it is between the ends
                    of the first one, by the signs of the other pair (`exists_mean_eq_zero`).
-/

namespace Precinct.Plane

/-- twice the area, with its sign, of the triangle `p`, `q`, `r` -/
def turn (p q r : Spot) : ℚ := (q.x - p.x) * (r.z - p.z) - (q.z - p.z) * (r.x - p.x)

theorem turn_of_onSegment {p q r : Spot} (h : OnSegment p q r) : turn p q r = 0 := by
  obtain ⟨t, _, _, hx, hz⟩ := h
  rw [turn, hx, hz]
  ring

theorem turn_between (p q a b s : Spot) (t : ℚ) (hx : s.x = a.x + t * (b.x - a.x))
    (hz : s.z = a.z + t * (b.z - a.z)) :
    turn p q s = (1 - t) * turn p q a + t * turn p q b := by
  rw [turn, turn, turn, hx, hz]
  ring

/-! ## orientation and span -/

theorem orientation_eq_sign (p q r : Point) :
    ∃ n : ℤ, orientation p q r = n.sign ∧ (n : ℚ) = turn p.spot q.spot r.spot := by
  refine ⟨_, rfl, ?_⟩
  push_cast
  rfl

theorem orientation_eq_zero_iff {p q r : Point} :
    orientation p q r = 0 ↔ turn p.spot q.spot r.spot = 0 := by
  obtain ⟨n, hn, hcast⟩ := orientation_eq_sign p q r
  rw [hn, ← hcast, Int.sign_eq_zero_iff_zero, Int.cast_eq_zero]

/-- a mean of two areas of one sign is not zero -/
theorem turn_eq_zero_of_orientation_eq {p q a b : Point} {t : ℚ} (h0 : 0 ≤ t) (h1 : t ≤ 1)
    (ho : orientation p q a = orientation p q b)
    (hmean : (1 - t) * turn p.spot q.spot a.spot + t * turn p.spot q.spot b.spot = 0) :
    turn p.spot q.spot a.spot = 0 ∧ turn p.spot q.spot b.spot = 0 := by
  obtain ⟨m, hm, hma⟩ := orientation_eq_sign p q a
  obtain ⟨n, hn, hnb⟩ := orientation_eq_sign p q b
  rw [hm, hn] at ho
  rw [← hma, ← hnb] at hmean ⊢
  rcases lt_trichotomy m 0 with h | rfl | h
  · have k : n < 0 := by
      rw [Int.sign_eq_neg_one_of_neg h] at ho
      exact Int.neg_of_sign_eq_neg_one ho.symm
    have hm' : (m : ℚ) ≤ -1 := by exact_mod_cast Int.le_sub_one_of_lt h
    have hn' : (n : ℚ) ≤ -1 := by exact_mod_cast Int.le_sub_one_of_lt k
    have h₁ := mul_le_mul_of_nonneg_left hm' (sub_nonneg.mpr h1)
    have h₂ := mul_le_mul_of_nonneg_left hn' h0
    linarith
  · rw [Int.sign_zero] at ho
    rw [Int.sign_eq_zero_iff_zero.mp ho.symm, Int.cast_zero]
    exact ⟨rfl, rfl⟩
  · have k : 0 < n := by
      rw [Int.sign_eq_one_of_pos h] at ho
      exact Int.pos_of_sign_eq_one ho.symm
    have hm' : (1 : ℚ) ≤ m := by exact_mod_cast h
    have hn' : (1 : ℚ) ≤ n := by exact_mod_cast k
    have h₁ := mul_le_mul_of_nonneg_left hm' (sub_nonneg.mpr h1)
    have h₂ := mul_le_mul_of_nonneg_left hn' h0
    linarith

theorem min_le_mean {x y t : ℚ} (h0 : 0 ≤ t) (h1 : t ≤ 1) :
    min x y ≤ x + t * (y - x) ∧ x + t * (y - x) ≤ max x y := by
  rcases le_total x y with h | h
  · rw [min_eq_left h, max_eq_right h]
    have h₁ := mul_nonneg h0 (sub_nonneg.mpr h)
    have h₂ := mul_le_mul_of_nonneg_right h1 (sub_nonneg.mpr h)
    exact ⟨by linarith, by linarith⟩
  · rw [min_eq_right h, max_eq_left h]
    have h₁ := mul_nonneg h0 (sub_nonneg.mpr h)
    have h₂ := mul_le_mul_of_nonneg_right h1 (sub_nonneg.mpr h)
    exact ⟨by linarith, by linarith⟩

theorem withinSpan_iff {p q r : Point} : withinSpan p q r = true ↔
    (min p.spot.x r.spot.x ≤ q.spot.x ∧ q.spot.x ≤ max p.spot.x r.spot.x) ∧
      min p.spot.z r.spot.z ≤ q.spot.z ∧ q.spot.z ≤ max p.spot.z r.spot.z := by
  simp only [withinSpan, Bool.and_eq_true, decide_eq_true_eq, and_assoc, Int32.le_iff_toInt_le,
    toInt_min, toInt_max, Point.spot, ← Int.cast_min, ← Int.cast_max, Int.cast_le]

/-- a vertex on a segment is found by the test for ends -/
theorem OnSegment.end_test {p q r : Point} (h : OnSegment p.spot q.spot r.spot) :
    orientation p q r = 0 ∧ withinSpan p r q = true := by
  refine ⟨orientation_eq_zero_iff.mpr (turn_of_onSegment h), withinSpan_iff.mpr ?_⟩
  obtain ⟨t, h0, h1, hx, hz⟩ := h
  rw [hx, hz]
  exact ⟨min_le_mean h0 h1, min_le_mean h0 h1⟩

/-! ## segments on one line -/

/-- a spot on the line through two others is a mean of them, maybe not between them -/
theorem exists_mean_of_turn {a b c : Spot} (hab : a ≠ b) (h : turn a b c = 0) :
    ∃ t : ℚ, c.x = a.x + t * (b.x - a.x) ∧ c.z = a.z + t * (b.z - a.z) := by
  unfold turn at h
  by_cases hx : b.x - a.x = 0
  · have hz : b.z - a.z ≠ 0 := by
      intro hz
      refine hab ?_
      cases a
      cases b
      rw [Spot.mk.injEq]
      exact ⟨(sub_eq_zero.mp hx).symm, (sub_eq_zero.mp hz).symm⟩
    rw [hx, zero_mul, zero_sub, neg_eq_zero] at h
    have hcx : c.x - a.x = 0 := (mul_eq_zero.mp h).resolve_left hz
    refine ⟨(c.z - a.z) / (b.z - a.z), ?_, ?_⟩
    · rw [hx, mul_zero, add_zero]
      exact sub_eq_zero.mp hcx
    · rw [div_mul_cancel₀ _ hz]
      ring
  · refine ⟨(c.x - a.x) / (b.x - a.x), ?_, ?_⟩
    · rw [div_mul_cancel₀ _ hx]
      ring
    · field_simp
      linarith

/-- the place of a spot on a proper segment is unique -/
theorem place_unique {a b : Spot} (hab : a ≠ b) {t u : ℚ}
    (hx : a.x + t * (b.x - a.x) = a.x + u * (b.x - a.x))
    (hz : a.z + t * (b.z - a.z) = a.z + u * (b.z - a.z)) : t = u := by
  by_contra hne
  refine hab ?_
  cases a
  cases b
  rw [Spot.mk.injEq]
  constructor
  · exact (sub_eq_zero.mp (mul_left_cancel₀ (sub_ne_zero.mpr hne) (by linarith))).symm
  · exact (sub_eq_zero.mp (mul_left_cancel₀ (sub_ne_zero.mpr hne) (by linarith))).symm

/-- of two segments on one line with a common spot, one has an end on the other -/
theorem exists_end_on {a b c d : Spot} (hc : turn a b c = 0) (hd : turn a b d = 0)
    (hm : Meet a b c d) : OnSegment a b c ∨ OnSegment a b d ∨ OnSegment c d a := by
  obtain ⟨s, ⟨t, h0, h1, hx, hz⟩, hs⟩ := hm
  rcases eq_or_ne a b with rfl | hab
  · -- the first segment is a single spot
    have : s = a := by
      cases s
      cases a
      rw [Spot.mk.injEq]
      exact ⟨by linarith, by linarith⟩
    exact Or.inr (Or.inr (this ▸ hs))
  obtain ⟨γ, cx, cz⟩ := exists_mean_of_turn hab hc
  obtain ⟨δ, dx, dz⟩ := exists_mean_of_turn hab hd
  obtain ⟨u, k0, k1, kx, kz⟩ := hs
  -- the common spot on the line, seen from either segment
  have hmean : t = γ + u * (δ - γ) := by
    refine place_unique hab ?_ ?_
    · rw [← hx, kx, cx, dx]; ring
    · rw [← hz, kz, cz, dz]; ring
  have hbetween : γ < 0 ∧ 1 < δ ∨ 1 < γ ∧ δ < 0 → OnSegment c d a := by
    intro h
    have hne : δ - γ ≠ 0 := by rcases h with h | h <;> intro he <;> linarith [h.1, h.2]
    refine ⟨-γ / (δ - γ), ?_, ?_, ?_, ?_⟩
    · rcases h with h | h
      · exact div_nonneg (by linarith [h.1]) (by linarith [h.1, h.2])
      · exact div_nonneg_of_nonpos (by linarith [h.1]) (by linarith [h.1, h.2])
    · rcases h with h | h
      · exact (div_le_one (by linarith [h.1, h.2])).mpr (by linarith [h.2])
      · exact (div_le_one_of_neg (by linarith [h.1, h.2])).mpr (by linarith [h.2])
    · rw [cx, dx]; field_simp; ring
    · rw [cz, dz]; field_simp; ring
  obtain ⟨hlo, hhi⟩ := min_le_mean (x := γ) (y := δ) k0 k1
  rw [← hmean] at hlo hhi
  by_cases hγ : 0 ≤ γ ∧ γ ≤ 1
  · exact Or.inl ⟨γ, hγ.1, hγ.2, cx, cz⟩
  by_cases hδ : 0 ≤ δ ∧ δ ≤ 1
  · exact Or.inr (Or.inl ⟨δ, hδ.1, hδ.2, dx, dz⟩)
  refine Or.inr (Or.inr (hbetween ?_))
  rw [not_and_or, not_le, not_le] at hγ hδ
  rcases hγ with hγ | hγ <;> rcases hδ with hδ | hδ
  · exact absurd (hhi.trans_lt (max_lt hγ hδ)) (not_lt.mpr h0)
  · exact Or.inl ⟨hγ, hδ⟩
  · exact Or.inr ⟨hγ, hδ⟩
  · exact absurd ((lt_min hγ hδ).trans_le hlo) (not_lt.mpr h1)

/-! ## the test -/

/-- the test is yes when an end of one segment is on the other -/
theorem segmentsCross_of_end {a b c d : Point} (h : OnSegment a.spot b.spot c.spot ∨
    OnSegment a.spot b.spot d.spot ∨ OnSegment c.spot d.spot a.spot ∨
      OnSegment c.spot d.spot b.spot) : segmentsCross a b c d = true := by
  simp only [segmentsCross, Bool.or_eq_true, Bool.and_eq_true, beq_iff_eq]
  rcases h with h | h | h | h
  · exact Or.inl (Or.inl (Or.inl (Or.inr h.end_test)))
  · exact Or.inl (Or.inl (Or.inr h.end_test))
  · exact Or.inl (Or.inr h.end_test)
  · exact Or.inr h.end_test

/-- **Segments with a common spot cross.** -/
theorem segmentsCross_of_meet {a b c d : Point} (h : Meet a.spot b.spot c.spot d.spot) :
    segmentsCross a b c d = true := by
  obtain ⟨s, hs, ks⟩ := h
  have ⟨t, h0, h1, hx, hz⟩ := hs
  have ⟨u, k0, k1, kx, kz⟩ := ks
  -- the common spot is on both lines
  have h₁ := turn_between a.spot b.spot c.spot d.spot s u kx kz
  rw [turn_of_onSegment hs] at h₁
  have h₂ := turn_between c.spot d.spot a.spot b.spot s t hx hz
  rw [turn_of_onSegment ks] at h₂
  by_cases ho₁ : orientation a b c = orientation a b d
  · obtain ⟨hc, hd⟩ := turn_eq_zero_of_orientation_eq k0 k1 ho₁ h₁.symm
    refine segmentsCross_of_end ?_
    rcases exists_end_on hc hd ⟨s, hs, ks⟩ with h | h | h
    · exact Or.inl h
    · exact Or.inr (Or.inl h)
    · exact Or.inr (Or.inr (Or.inl h))
  by_cases ho₂ : orientation c d a = orientation c d b
  · obtain ⟨ha, hb⟩ := turn_eq_zero_of_orientation_eq h0 h1 ho₂ h₂.symm
    refine segmentsCross_of_end ?_
    rcases exists_end_on ha hb ⟨s, ks, hs⟩ with h | h | h
    · exact Or.inr (Or.inr (Or.inl h))
    · exact Or.inr (Or.inr (Or.inr h))
    · exact Or.inl h
  · simp [segmentsCross, ho₁, ho₂]

/-! ## the test finds nothing else -/

theorem le_of_min_le_mean {x y t : ℚ} (hne : x ≠ y)
    (h : min x y ≤ x + t * (y - x) ∧ x + t * (y - x) ≤ max x y) : 0 ≤ t ∧ t ≤ 1 := by
  rcases lt_or_gt_of_ne hne with hlt | hgt
  · rw [min_eq_left hlt.le, max_eq_right hlt.le] at h
    have hpos : 0 < y - x := sub_pos.mpr hlt
    exact ⟨nonneg_of_mul_nonneg_left (by linarith) hpos,
      le_of_mul_le_mul_right (by linarith) hpos⟩
  · rw [min_eq_right (le_of_lt hgt), max_eq_left (le_of_lt hgt)] at h
    have hpos : 0 < x - y := sub_pos.mpr hgt
    exact ⟨nonneg_of_mul_nonneg_left (by linarith) hpos,
      le_of_mul_le_mul_right (by linarith) hpos⟩

/-- a spot on the line through two others, in their upright rectangle, is between them -/
theorem onSegment_of_span {a b c : Spot} (h : turn a b c = 0)
    (hx : min a.x b.x ≤ c.x ∧ c.x ≤ max a.x b.x) (hz : min a.z b.z ≤ c.z ∧ c.z ≤ max a.z b.z) :
    OnSegment a b c := by
  rcases eq_or_ne a b with rfl | hab
  · simp only [min_self, max_self] at hx hz
    exact ⟨0, le_rfl, zero_le_one, by linarith, by linarith⟩
  obtain ⟨t, hcx, hcz⟩ := exists_mean_of_turn hab h
  rw [hcx] at hx
  rw [hcz] at hz
  have ht : 0 ≤ t ∧ t ≤ 1 := by
    by_cases hne : a.x = b.x
    · refine le_of_min_le_mean (fun he => hab ?_) hz
      cases a
      cases b
      rw [Spot.mk.injEq]
      exact ⟨hne, he⟩
    · exact le_of_min_le_mean hne hx
  exact ⟨t, ht.1, ht.2, hcx, hcz⟩

/-- a vertex that the test for ends finds is on the segment -/
theorem onSegment_of_end_test {p q r : Point} (ho : orientation p q r = 0)
    (hs : withinSpan p r q = true) : OnSegment p.spot q.spot r.spot := by
  obtain ⟨hx, hz⟩ := withinSpan_iff.mp hs
  exact onSegment_of_span (orientation_eq_zero_iff.mp ho) hx hz

/-- between two numbers of different signs a mean of them is zero at one place -/
theorem exists_mean_eq_zero {m n : ℤ} (h : m.sign ≠ n.sign) :
    ∃ u : ℚ, (0 ≤ u ∧ u ≤ 1) ∧ ∀ t : ℚ, (1 - t) * m + t * n = 0 ↔ t = u := by
  have hopposite : m ≤ 0 ∧ 0 ≤ n ∨ 0 ≤ m ∧ n ≤ 0 := by
    rcases lt_trichotomy m 0 with hm | rfl | hm
    · refine Or.inl ⟨hm.le, not_lt.mp fun hn => h ?_⟩
      rw [Int.sign_eq_neg_one_of_neg hm, Int.sign_eq_neg_one_of_neg hn]
    · rcases le_total 0 n with hn | hn
      · exact Or.inl ⟨le_rfl, hn⟩
      · exact Or.inr ⟨le_rfl, hn⟩
    · refine Or.inr ⟨hm.le, not_lt.mp fun hn => h ?_⟩
      rw [Int.sign_eq_one_of_pos hm, Int.sign_eq_one_of_pos hn]
  have hne : (m : ℚ) - n ≠ 0 := by
    rw [sub_ne_zero]
    exact fun he => h (congrArg Int.sign (Int.cast_inj.mp he))
  refine ⟨m / (m - n), ?_, fun t => ?_⟩
  · rcases hopposite with ⟨hm, hn⟩ | ⟨hm, hn⟩
    · have hm' : (m : ℚ) ≤ 0 := by exact_mod_cast hm
      have hn' : (0 : ℚ) ≤ n := by exact_mod_cast hn
      have hneg : (m : ℚ) - n < 0 := lt_of_le_of_ne (by linarith) hne
      exact ⟨div_nonneg_of_nonpos hm' hneg.le, (div_le_one_of_neg hneg).mpr (by linarith)⟩
    · have hm' : (0 : ℚ) ≤ m := by exact_mod_cast hm
      have hn' : (n : ℚ) ≤ 0 := by exact_mod_cast hn
      have hpos : 0 < (m : ℚ) - n := lt_of_le_of_ne (by linarith) hne.symm
      exact ⟨div_nonneg hm' hpos.le, (div_le_one hpos).mpr (by linarith)⟩
  · rw [eq_div_iff hne]
    constructor <;> intro ht <;> linarith

/-- if the ends of each segment are on different sides of the other, the segments meet -/
theorem meet_of_orientation_ne {a b c d : Point} (h₁ : orientation a b c ≠ orientation a b d)
    (h₂ : orientation c d a ≠ orientation c d b) : Meet a.spot b.spot c.spot d.spot := by
  obtain ⟨m, hm, hmc⟩ := orientation_eq_sign a b c
  obtain ⟨n, hn, hnd⟩ := orientation_eq_sign a b d
  obtain ⟨k, hk, hka⟩ := orientation_eq_sign c d a
  obtain ⟨l, hl, hlb⟩ := orientation_eq_sign c d b
  rw [hm, hn] at h₁
  rw [hk, hl] at h₂
  obtain ⟨u, ⟨u0, u1⟩, hu⟩ := exists_mean_eq_zero h₁
  obtain ⟨v, ⟨v0, v1⟩, hv⟩ := exists_mean_eq_zero h₂
  -- where the second segment comes to the line of the first
  let s : Spot := ⟨c.spot.x + u * (d.spot.x - c.spot.x), c.spot.z + u * (d.spot.z - c.spot.z)⟩
  have hcd : OnSegment c.spot d.spot s := ⟨u, u0, u1, rfl, rfl⟩
  have hline : turn a.spot b.spot s = 0 := by
    rw [turn_between a.spot b.spot c.spot d.spot s u rfl rfl, ← hmc, ← hnd]
    exact (hu u).mpr rfl
  have hab : a.spot ≠ b.spot := by
    intro he
    have hzero : ∀ r : Spot, turn a.spot b.spot r = 0 := by
      intro r
      rw [he, turn]
      ring
    have hm0 : (m : ℚ) = n := by rw [hmc, hnd, hzero, hzero]
    exact h₁ (congrArg Int.sign (Int.cast_inj.mp hm0))
  -- it is there between the ends of the first one
  obtain ⟨t, hx, hz⟩ := exists_mean_of_turn hab hline
  have ht : t = v := by
    rw [← hv, hka, hlb, ← turn_between c.spot d.spot a.spot b.spot s t hx hz]
    exact turn_of_onSegment hcd
  exact ⟨s, ⟨t, ht ▸ v0, ht ▸ v1, hx, hz⟩, hcd⟩

/-- **Segments that cross have a common spot.** -/
theorem meet_of_segmentsCross {a b c d : Point} (h : segmentsCross a b c d = true) :
    Meet a.spot b.spot c.spot d.spot := by
  simp only [segmentsCross, Bool.or_eq_true, Bool.and_eq_true, bne_iff_ne, beq_iff_eq] at h
  rcases h with (((⟨h₁, h₂⟩ | ⟨ho, hs⟩) | ⟨ho, hs⟩) | ⟨ho, hs⟩) | ⟨ho, hs⟩
  · exact meet_of_orientation_ne h₁ h₂
  · exact ⟨c.spot, onSegment_of_end_test ho hs, onSegment_left _ _⟩
  · exact ⟨d.spot, onSegment_of_end_test ho hs, onSegment_right _ _⟩
  · exact ⟨a.spot, onSegment_left _ _, onSegment_of_end_test ho hs⟩
  · exact ⟨b.spot, onSegment_right _ _, onSegment_of_end_test ho hs⟩

/-- **The test for two segments is exact**, whether they cross, touch, lie on one line or are single
points; and the sides it compares are those that are worked out in 128 bits. -/
theorem segmentsCross_iff_meet (a b c d : Point) :
    (segmentsCross a b c d = true ↔
      ∃ s : Spot, OnSegment a.spot b.spot s ∧ OnSegment c.spot d.spot s) ∧
    ∀ p q r : Point, wideOrientation p q r = some (orientation p q r) :=
  ⟨⟨meet_of_segmentsCross, segmentsCross_of_meet⟩, wideOrientation_eq⟩

/-- the diagonals of the whole plane cross, and they do so between the grid points -/
example : segmentsCross ⟨.minValue, .minValue⟩ ⟨.maxValue, .maxValue⟩ ⟨.minValue, .maxValue⟩
    ⟨.maxValue, .minValue⟩ = true := by decide

/-- a point on the line of a segment, but not on the segment -/
example : segmentsCross ⟨0, 0⟩ ⟨2, 2⟩ ⟨3, 3⟩ ⟨3, 3⟩ = false := by decide

/-! ## outlines -/

theorem outlinesCross_of_meet {ps qs : List Point} (h : ∃ e ∈ edges ps, ∃ f ∈ edges qs,
    Meet e.1.spot e.2.spot f.1.spot f.2.spot) : outlinesCross ps qs = true := by
  obtain ⟨e, he, f, hf, hm⟩ := h
  rw [outlinesCross, List.any_eq_true]
  refine ⟨e, he, ?_⟩
  rw [List.any_eq_true]
  exact ⟨f, hf, segmentsCross_of_meet hm⟩

theorem meet_of_outlinesCross {ps qs : List Point} (h : outlinesCross ps qs = true) :
    ∃ e ∈ edges ps, ∃ f ∈ edges qs, Meet e.1.spot e.2.spot f.1.spot f.2.spot := by
  rw [outlinesCross, List.any_eq_true] at h
  obtain ⟨e, he, h⟩ := h
  rw [List.any_eq_true] at h
  obtain ⟨f, hf, h⟩ := h
  exact ⟨e, he, f, hf, meet_of_segmentsCross h⟩

end Precinct.Plane
