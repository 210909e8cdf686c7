import Mathlib
import Precinct.Plane.Polygon

/-!
# Even-odd parity in the rational plane

An outline with vertices in the grid also separates the spots between the grid points.

* `Spot`            a point with rational coordinates;
* `OnSegment`, `Meet`  a spot on a closed segment, two closed segments with a common spot;
* `PassesAbove`     an edge passes above a spot: its span is half open (left end excluded);
* `StandsAbove`     a vertex stands above a segment: its span is half open the other way round;
* `crossings`       how many edges of an outline pass above a spot;
* `Covers`          the closed even-odd region of an outline: on an edge, or an odd number of
                    crossings.

`passing_add_passing` is the local fact.  For a segment and an edge without a common spot, the
ends of the segment below the edge and the ends of the edge above the segment are even in number:
where the two spans overlap, the edge is above the segment at both ends of the overlap or at none.
The two half-open rules fit together, so no position is special.  Summed around a closed outline
every vertex counts twice, hence **the parity does not change along a segment that meets no edge**
(`crossings_congr`).
-/

namespace Precinct.Plane

/-- a point of the plane with rational coordinates -/
structure Spot where
  x : ℚ
  z : ℚ
  deriving DecidableEq

/-- a grid point as a spot -/
def Point.spot (p : Point) : Spot := ⟨p.x.toInt, p.z.toInt⟩

/-- the spot is on the closed segment from `a` to `b` -/
def OnSegment (a b s : Spot) : Prop :=
  ∃ t : ℚ, 0 ≤ t ∧ t ≤ 1 ∧ s.x = a.x + t * (b.x - a.x) ∧ s.z = a.z + t * (b.z - a.z)

/-- the closed segments have a common spot -/
def Meet (a b c d : Spot) : Prop := ∃ s, OnSegment a b s ∧ OnSegment c d s

/-- the height of the line through `a` and `b` at `x`, if the line is not upright -/
def height (a b : Spot) (x : ℚ) : ℚ := a.z + (x - a.x) / (b.x - a.x) * (b.z - a.z)

/-- the edge from `a` to `b` passes above the spot -/
def PassesAbove (a b s : Spot) : Prop :=
  min a.x b.x < s.x ∧ s.x ≤ max a.x b.x ∧ s.z < height a b s.x

/-- the spot stands above the segment from `a` to `b` -/
def StandsAbove (a b s : Spot) : Prop :=
  min a.x b.x ≤ s.x ∧ s.x < max a.x b.x ∧ height a b s.x < s.z

instance (a b s : Spot) : Decidable (PassesAbove a b s) := inferInstanceAs (Decidable (_ ∧ _))

instance (a b s : Spot) : Decidable (StandsAbove a b s) := inferInstanceAs (Decidable (_ ∧ _))

/-- how many edges of the outline pass above the spot -/
def crossings (outline : List Point) (s : Spot) : ℕ :=
  (edges outline).countP fun e => decide (PassesAbove e.1.spot e.2.spot s)

/-- the spot is on an edge of the outline -/
def OnOutline (outline : List Point) (s : Spot) : Prop :=
  ∃ e ∈ edges outline, OnSegment e.1.spot e.2.spot s

/-- the spot is on the outline or inside it -/
def Covers (outline : List Point) (s : Spot) : Prop :=
  OnOutline outline s ∨ Odd (crossings outline s)

/-! ## lines and segments -/

theorem height_left (a b : Spot) : height a b a.x = a.z := by
  rw [height, sub_self, zero_div, zero_mul, add_zero]

theorem height_right {a b : Spot} (h : a.x ≠ b.x) : height a b b.x = b.z := by
  rw [height, div_self (sub_ne_zero.mpr h.symm)]
  ring

theorem height_comm {a b : Spot} (h : a.x ≠ b.x) (x : ℚ) : height a b x = height b a x := by
  have h₁ : b.x - a.x ≠ 0 := sub_ne_zero.mpr h.symm
  have h₂ : a.x - b.x ≠ 0 := sub_ne_zero.mpr h
  unfold height
  field_simp
  ring

theorem OnSegment.symm {a b s : Spot} (h : OnSegment a b s) : OnSegment b a s := by
  obtain ⟨t, h0, h1, hx, hz⟩ := h
  refine ⟨1 - t, by linarith, by linarith, ?_, ?_⟩
  · rw [hx]; ring
  · rw [hz]; ring

theorem onSegment_left (a b : Spot) : OnSegment a b a :=
  ⟨0, le_refl _, zero_le_one, by ring, by ring⟩

theorem onSegment_right (a b : Spot) : OnSegment a b b :=
  ⟨1, zero_le_one, le_refl _, by ring, by ring⟩

theorem OnSegment.trans {a b c s : Spot} (hc : OnSegment a b c) (hs : OnSegment c a s) :
    OnSegment a b s := by
  obtain ⟨t, h0, h1, hx, hz⟩ := hc
  obtain ⟨u, k0, k1, kx, kz⟩ := hs
  refine ⟨(1 - u) * t, mul_nonneg (by linarith) h0,
    mul_le_one₀ (by linarith) h0 h1, ?_, ?_⟩
  · rw [kx, hx]; ring
  · rw [kz, hz]; ring

theorem Meet.swap {a b c d : Spot} (h : Meet a b c d) : Meet c d a b := by
  obtain ⟨s, h₁, h₂⟩ := h
  exact ⟨s, h₂, h₁⟩

theorem Meet.flip_left {a b c d : Spot} (h : Meet a b c d) : Meet b a c d := by
  obtain ⟨s, h₁, h₂⟩ := h
  exact ⟨s, h₁.symm, h₂⟩

/-- within the span of a segment the spot of its line is on it -/
theorem onSegment_height {a b : Spot} {x : ℚ} (h : a.x < b.x) (h₁ : a.x ≤ x) (h₂ : x ≤ b.x) :
    OnSegment a b ⟨x, height a b x⟩ := by
  have hpos : 0 < b.x - a.x := sub_pos.mpr h
  refine ⟨(x - a.x) / (b.x - a.x), div_nonneg (by linarith) hpos.le,
    (div_le_one hpos).mpr (by linarith), ?_, rfl⟩
  rw [div_mul_cancel₀ _ hpos.ne']
  ring

theorem onSegment_height_of_span {a b : Spot} {x : ℚ} (h : a.x ≠ b.x) (h₁ : min a.x b.x ≤ x)
    (h₂ : x ≤ max a.x b.x) : OnSegment a b ⟨x, height a b x⟩ := by
  rcases lt_or_gt_of_ne h with hlt | hgt
  · rw [min_eq_left hlt.le] at h₁
    rw [max_eq_right hlt.le] at h₂
    exact onSegment_height hlt h₁ h₂
  · rw [min_eq_right (le_of_lt hgt)] at h₁
    rw [max_eq_left (le_of_lt hgt)] at h₂
    rw [height_comm h]
    exact (onSegment_height hgt h₁ h₂).symm

/-- the height of a line is an affine function -/
theorem height_between (a b : Spot) (u v t : ℚ) :
    height a b (u + t * (v - u)) = height a b u + t * (height a b v - height a b u) := by
  unfold height
  ring

/-- two lines that change places between `u` and `v` have a common height on the way -/
theorem exists_height_eq {a b c d : Spot} {u v : ℚ} (huv : u ≤ v)
    (hu : height c d u ≤ height a b u) (hv : height a b v ≤ height c d v) :
    ∃ x, u ≤ x ∧ x ≤ v ∧ height a b x = height c d x := by
  rcases eq_or_lt_of_le hu with he | hlt
  · exact ⟨u, le_refl u, huv, he.symm⟩
  · have hpos : 0 < (height a b u - height c d u) + (height c d v - height a b v) := by linarith
    have hfrac := div_mul_cancel₀ (height a b u - height c d u) hpos.ne'
    have h0 := div_nonneg (sub_nonneg.mpr hu) hpos.le
    have h1 : (height a b u - height c d u) /
        ((height a b u - height c d u) + (height c d v - height a b v)) ≤ 1 :=
      (div_le_one hpos).mpr (by linarith)
    generalize (height a b u - height c d u) /
      ((height a b u - height c d u) + (height c d v - height a b v)) = t at hfrac h0 h1
    refine ⟨u + t * (v - u), ?_, ?_, ?_⟩
    · have := mul_nonneg h0 (sub_nonneg.mpr huv)
      linarith
    · have := mul_le_mul_of_nonneg_right h1 (sub_nonneg.mpr huv)
      linarith
    · rw [height_between, height_between]
      linarith

/-- a spot between the ends of an upright segment is on it -/
theorem onSegment_of_upright {a b s : Spot} (hab : a.x = b.x) (hs : s.x = a.x) (h₁ : a.z ≤ s.z)
    (h₂ : s.z ≤ b.z) : OnSegment a b s := by
  rcases eq_or_lt_of_le (h₁.trans h₂) with he | hlt
  · exact ⟨0, le_refl _, zero_le_one, by rw [hs]; ring, by linarith⟩
  · have hpos : 0 < b.z - a.z := sub_pos.mpr hlt
    refine ⟨(s.z - a.z) / (b.z - a.z), div_nonneg (by linarith) hpos.le,
      (div_le_one hpos).mpr (by linarith), ?_, ?_⟩
    · rw [hs, ← hab]; ring
    · rw [div_mul_cancel₀ _ hpos.ne']; ring

/-! ## one edge and one segment -/

/-- the contribution of an edge to the parity of the crossings above a spot -/
def passing (a b s : Spot) : ZMod 2 := if PassesAbove a b s then 1 else 0

/-- the same for a vertex above a segment -/
def standing (a b s : Spot) : ZMod 2 := if StandsAbove a b s then 1 else 0

theorem passesAbove_comm (a b s : Spot) : PassesAbove a b s ↔ PassesAbove b a s := by
  unfold PassesAbove
  rw [min_comm, max_comm]
  by_cases h : a.x = b.x
  · rw [h, min_self, max_self]
    exact ⟨fun k => absurd k.1 (not_lt.mpr k.2.1), fun k => absurd k.1 (not_lt.mpr k.2.1)⟩
  · rw [height_comm h]

theorem standsAbove_comm (a b s : Spot) : StandsAbove a b s ↔ StandsAbove b a s := by
  unfold StandsAbove
  rw [min_comm, max_comm]
  by_cases h : a.x = b.x
  · rw [h, min_self, max_self]
    exact ⟨fun k => absurd k.2.1 (not_lt.mpr k.1), fun k => absurd k.2.1 (not_lt.mpr k.1)⟩
  · rw [height_comm h]

theorem passing_comm (a b s : Spot) : passing a b s = passing b a s := by
  unfold passing
  simp only [passesAbove_comm a b s]

theorem standing_comm (a b s : Spot) : standing a b s = standing b a s := by
  unfold standing
  simp only [standsAbove_comm a b s]

theorem passing_of_upright {a b : Spot} (h : a.x = b.x) (s : Spot) : passing a b s = 0 := by
  refine if_neg fun k => ?_
  have h₁ := k.1
  have h₂ := k.2.1
  rw [h, min_self] at h₁
  rw [h, max_self] at h₂
  exact absurd h₁ (not_lt.mpr h₂)

theorem standing_of_upright {a b : Spot} (h : a.x = b.x) (s : Spot) : standing a b s = 0 := by
  refine if_neg fun k => ?_
  have h₁ := k.1
  have h₂ := k.2.1
  rw [h, min_self] at h₁
  rw [h, max_self] at h₂
  exact absurd h₂ (not_lt.mpr h₁)

/-- two spans overlap in a span: of its ends as many belong to the one as to the other, modulo 2 -/
theorem span_parity {a b c d : ℚ} (hab : a < b) (hcd : c < d) :
    (if a < c ∧ c ≤ b then 1 else 0) + (if a < d ∧ d ≤ b then 1 else 0) =
      (if c ≤ a ∧ a < d then 1 else 0) + ((if c ≤ b ∧ b < d then 1 else 0) : ZMod 2) := by
  rcases le_or_gt c a with h | h
  · rw [if_neg (fun k => absurd k.1 (not_lt.mpr h)), zero_add]
    rcases le_or_gt d a with k | k
    · rw [if_neg (fun e => absurd e.1 (not_lt.mpr k)), if_neg (fun e => absurd e.2 (not_lt.mpr k)),
        if_neg (fun e => by linarith [e.2])]
      rfl
    · rw [if_pos (⟨h, k⟩ : c ≤ a ∧ a < d)]
      rcases le_or_gt d b with l | l
      · rw [if_pos ⟨k, l⟩, if_neg (fun e => absurd e.2 (not_lt.mpr l))]
        rfl
      · rw [if_neg (fun e => absurd e.2 (not_le.mpr l)), if_pos ⟨by linarith, l⟩]
        rfl
  · rw [if_neg (fun k : c ≤ a ∧ a < d => absurd k.1 (not_le.mpr h)), zero_add]
    rcases le_or_gt c b with k | k
    · rw [if_pos ⟨h, k⟩]
      rcases le_or_gt d b with l | l
      · rw [if_pos ⟨by linarith, l⟩, if_neg (fun e => absurd e.2 (not_lt.mpr l))]
        rfl
      · rw [if_neg (fun e => absurd e.2 (not_le.mpr l)), if_pos ⟨k, l⟩]
        rfl
    · rw [if_neg (fun e => absurd e.2 (not_le.mpr k)), if_neg (fun e => by linarith [e.2]),
        if_neg (fun e => absurd e.1 (not_le.mpr k))]
      rfl

/-- where the spans overlap, the one line is above the other throughout or nowhere -/
theorem height_lt_iff {a b c d : Spot} (hab : a.x < b.x) (hcd : c.x < d.x) (hm : ¬ Meet a b c d)
    {u v : ℚ} (hu : a.x ≤ u ∧ u ≤ b.x ∧ c.x ≤ u ∧ u ≤ d.x)
    (hv : a.x ≤ v ∧ v ≤ b.x ∧ c.x ≤ v ∧ v ≤ d.x) :
    height c d u < height a b u ↔ height c d v < height a b v := by
  wlog huv : u ≤ v generalizing u v
  · exact (this hv hu (le_of_not_ge huv)).symm
  have apart : ∀ x, u ≤ x → x ≤ v → height a b x ≠ height c d x := by
    intro x h₁ h₂ he
    refine hm ⟨⟨x, height a b x⟩, onSegment_height hab (hu.1.trans h₁) (h₂.trans hv.2.1), ?_⟩
    rw [he]
    exact onSegment_height hcd (hu.2.2.1.trans h₁) (h₂.trans hv.2.2.2)
  constructor
  · intro h
    by_contra hn
    obtain ⟨x, h₁, h₂, he⟩ := exists_height_eq huv h.le (not_lt.mp hn)
    exact apart x h₁ h₂ he
  · intro h
    by_contra hn
    obtain ⟨x, h₁, h₂, he⟩ := exists_height_eq huv (not_lt.mp hn) h.le
    exact apart x h₁ h₂ he.symm

/-- the local fact for an edge and a segment that run from left to right -/
theorem passing_add_passing_of_lt {a b c d : Spot} (hab : a.x < b.x) (hcd : c.x < d.x)
    (hm : ¬ Meet a b c d) :
    passing a b c + passing a b d = standing c d a + standing c d b := by
  -- `above`: the edge is above the segment where the overlap of the spans begins
  have key : ∀ x, a.x ≤ x → x ≤ b.x → c.x ≤ x → x ≤ d.x →
      (height c d x < height a b x ↔
        height c d (max a.x c.x) < height a b (max a.x c.x)) := by
    intro x h₁ h₂ h₃ h₄
    have hle := max_le h₁ h₃
    exact height_lt_iff hab hcd hm ⟨h₁, h₂, h₃, h₄⟩
      ⟨le_max_left _ _, hle.trans h₂, le_max_right _ _, hle.trans h₄⟩
  generalize (height c d (max a.x c.x) < height a b (max a.x c.x)) = above at key
  have pc : PassesAbove a b c ↔ (a.x < c.x ∧ c.x ≤ b.x) ∧ above := by
    unfold PassesAbove
    rw [min_eq_left hab.le, max_eq_right hab.le, ← and_assoc]
    refine and_congr_right fun h => ?_
    rw [← key c.x h.1.le h.2 (le_refl _) hcd.le, height_left]
  have pd : PassesAbove a b d ↔ (a.x < d.x ∧ d.x ≤ b.x) ∧ above := by
    unfold PassesAbove
    rw [min_eq_left hab.le, max_eq_right hab.le, ← and_assoc]
    refine and_congr_right fun h => ?_
    rw [← key d.x h.1.le h.2 hcd.le (le_refl _), height_right hcd.ne]
  have sa : StandsAbove c d a ↔ (c.x ≤ a.x ∧ a.x < d.x) ∧ above := by
    unfold StandsAbove
    rw [min_eq_left hcd.le, max_eq_right hcd.le, ← and_assoc]
    refine and_congr_right fun h => ?_
    rw [← key a.x (le_refl _) hab.le h.1 h.2.le, height_left]
  have sb : StandsAbove c d b ↔ (c.x ≤ b.x ∧ b.x < d.x) ∧ above := by
    unfold StandsAbove
    rw [min_eq_left hcd.le, max_eq_right hcd.le, ← and_assoc]
    refine and_congr_right fun h => ?_
    rw [← key b.x hab.le (le_refl _) h.1 h.2.le, height_right hab.ne]
  unfold passing standing
  by_cases habove : above
  · simp only [habove, and_true] at pc pd sa sb
    simp only [pc, pd, sa, sb]
    exact span_parity hab hcd
  · simp only [habove, and_false] at pc pd sa sb
    simp only [pc, pd, sa, sb, if_false]

/-- both ends of an upright edge stand above a segment that it does not meet, or none does -/
theorem standing_eq_of_upright {a b c d : Spot} (hab : a.x = b.x) (hm : ¬ Meet a b c d) :
    standing c d a = standing c d b := by
  by_cases hcd : c.x = d.x
  · rw [standing_of_upright hcd, standing_of_upright hcd]
  wlog hz : a.z ≤ b.z generalizing a b
  · exact (this hab.symm (fun h => hm h.flip_left) (le_of_not_ge hz)).symm
  have hiff : StandsAbove c d a ↔ StandsAbove c d b := by
    unfold StandsAbove
    rw [← hab]
    refine and_congr_right fun h₁ => and_congr_right fun h₂ => ⟨fun h => h.trans_le hz, ?_⟩
    intro h
    by_contra hn
    exact hm ⟨⟨a.x, height c d a.x⟩, onSegment_of_upright hab rfl (not_lt.mp hn) h.le,
      onSegment_height_of_span hcd h₁ h₂.le⟩
  unfold standing
  simp only [hiff]

/-- an edge passes above both ends of an upright segment that it does not meet, or above none -/
theorem passing_eq_of_upright {a b c d : Spot} (hcd : c.x = d.x) (hm : ¬ Meet a b c d) :
    passing a b c = passing a b d := by
  by_cases hab : a.x = b.x
  · rw [passing_of_upright hab, passing_of_upright hab]
  wlog hz : c.z ≤ d.z generalizing c d
  · exact (this hcd.symm (fun h => hm h.swap.flip_left.swap) (le_of_not_ge hz)).symm
  have hiff : PassesAbove a b c ↔ PassesAbove a b d := by
    unfold PassesAbove
    rw [← hcd]
    refine and_congr_right fun h₁ => and_congr_right fun h₂ => ⟨?_, fun h => hz.trans_lt h⟩
    intro h
    by_contra hn
    exact hm ⟨⟨c.x, height a b c.x⟩, onSegment_height_of_span hab h₁.le h₂,
      onSegment_of_upright hcd rfl h.le (not_lt.mp hn)⟩
  unfold passing
  simp only [hiff]

/-- **An edge and a segment without a common spot**: the ends of the segment below the edge and the
ends of the edge above the segment are even in number. -/
theorem passing_add_passing {a b c d : Spot} (hm : ¬ Meet a b c d) :
    passing a b c + passing a b d = standing c d a + standing c d b := by
  rcases eq_or_ne a.x b.x with hab | hab
  · rw [passing_of_upright hab, passing_of_upright hab, standing_eq_of_upright hab hm]
    exact (CharTwo.add_self_eq_zero _).symm
  rcases eq_or_ne c.x d.x with hcd | hcd
  · rw [standing_of_upright hcd, standing_of_upright hcd, passing_eq_of_upright hcd hm]
    exact CharTwo.add_self_eq_zero _
  wlog h₁ : a.x < b.x generalizing a b
  · have := this (fun h => hm h.flip_left) hab.symm (lt_of_le_of_ne (not_lt.mp h₁) hab.symm)
    rw [passing_comm a b c, passing_comm a b d, this, add_comm]
  wlog h₂ : c.x < d.x generalizing c d
  · have := this hcd.symm (fun h => hm h.swap.flip_left.swap)
      (lt_of_le_of_ne (not_lt.mp h₂) hcd.symm)
    rw [standing_comm c d a, standing_comm c d b, ← this, add_comm]
  exact passing_add_passing_of_lt h₁ h₂ hm

/-! ## around an outline -/

theorem cast_crossings (outline : List Point) (s : Spot) :
    (crossings outline s : ZMod 2) =
      ((edges outline).map fun e => passing e.1.spot e.2.spot s).sum := by
  unfold crossings
  induction edges outline with
  | nil => rfl
  | cons e es ih =>
    rw [List.countP_cons, List.map_cons, List.sum_cons, Nat.cast_add, ih, add_comm]
    unfold passing
    congr 1
    by_cases h : PassesAbove e.1.spot e.2.spot s <;> simp [h]

/-- what is covered is told by the edges through the spot and the parity of those above it -/
theorem covers_congr {l m : List Point} {s t : Spot} (hon : OnOutline l s ↔ OnOutline m t)
    (hcross : (crossings l s : ZMod 2) = crossings m t) : Covers l s ↔ Covers m t := by
  rw [Covers, Covers, hon, ← ZMod.natCast_eq_one_iff_odd, ← ZMod.natCast_eq_one_iff_odd, hcross]

theorem edges_map_fst (outline : List Point) : (edges outline).map Prod.fst = outline := by
  refine List.map_fst_zip ?_
  cases outline <;> simp

/-- a vertex is on the outline -/
theorem onOutline_of_mem {outline : List Point} {p : Point} (h : p ∈ outline) :
    OnOutline outline p.spot := by
  rw [← edges_map_fst outline] at h
  obtain ⟨e, he, rfl⟩ := List.mem_map.mp h
  exact ⟨e, he, onSegment_left _ _⟩

theorem edges_map_snd_perm (outline : List Point) :
    ((edges outline).map Prod.snd).Perm outline := by
  have h : (edges outline).map Prod.snd = outline.tail ++ outline.take 1 := by
    refine List.map_snd_zip ?_
    cases outline <;> simp
  rw [h]
  cases outline with
  | nil => rfl
  | cons p ps => exact List.perm_append_singleton p ps

/-- around an outline every vertex is an end of two edges, so a mark of the ends counts for nothing
modulo 2 -/
theorem sum_ends (outline : List Point) (mark : Point → ZMod 2) :
    ((edges outline).map fun e => mark e.1 + mark e.2).sum = 0 := by
  have h₁ : ((edges outline).map fun e => mark e.1).sum = (outline.map mark).sum := by
    conv_rhs => rw [← edges_map_fst outline, List.map_map]
    rfl
  have h₂ : ((edges outline).map fun e => mark e.2).sum = (outline.map mark).sum := by
    rw [← ((edges_map_snd_perm outline).map mark).sum_eq, List.map_map]
    rfl
  rw [List.sum_map_add, h₁, h₂]
  exact CharTwo.add_self_eq_zero _

/-- **The parity does not change along a segment that meets no edge.** -/
theorem crossings_congr {outline : List Point} {s t : Spot}
    (hm : ∀ e ∈ edges outline, ¬ Meet e.1.spot e.2.spot s t) :
    (crossings outline s : ZMod 2) = crossings outline t := by
  have hsum : (crossings outline s : ZMod 2) + crossings outline t = 0 := by
    rw [cast_crossings, cast_crossings, ← List.sum_map_add]
    rw [List.map_congr_left fun e he => passing_add_passing (hm e he)]
    exact sum_ends outline fun p => standing s t p.spot
  exact CharTwo.add_eq_zero.mp hsum

end Precinct.Plane
