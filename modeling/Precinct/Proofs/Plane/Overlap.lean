import Mathlib
import Precinct.Proofs.Plane.Parity

/-!
# Two outlines that cover a common spot

**`exists_vertex_or_meet`**: if two outlines cover a common spot, then a vertex of one is covered by
the other, or an edge of one meets an edge of the other.

Suppose neither.  Then no spot of the one outline has an odd number of edges of the other above it
(`crossings_eq_zero`: the parity is that of the nearest vertex along the edge), so the
common spot is on neither outline and an odd number of edges of each pass above it.  Their pairs,
one edge of each, are odd in number.  In every pair the one edge is above the other at the common
spot's `x` (`passing_mul_passing`).  Seen from an edge of the first outline the edges of the second
above it are even in number, and the other way round: so the pairs are even in number too.
-/

namespace Precinct.Plane

/-- the spot of the line through `a` and `b` straight above or below another spot -/
def plumb (a b s : Spot) : Spot := ⟨s.x, height a b s.x⟩

theorem onSegment_plumb {a b s : Spot} (h : PassesAbove a b s) : OnSegment a b (plumb a b s) := by
  have hne : a.x ≠ b.x := by
    intro he
    have h₁ := h.1
    have h₂ := h.2.1
    rw [he, min_self] at h₁
    rw [he, max_self] at h₂
    exact absurd h₁ (not_lt.mpr h₂)
  exact onSegment_height_of_span hne h.1.le h.2.1

/-- an edge above an edge that passes above a spot passes above the spot -/
theorem PassesAbove.of_plumb {a b c d s : Spot} (h : PassesAbove a b s)
    (k : PassesAbove c d (plumb a b s)) : PassesAbove c d s :=
  ⟨k.1, k.2.1, h.2.2.trans k.2.2⟩

/-- of two edges above a spot that do not meet, one is above the other -/
theorem passing_mul_passing {a b c d : Spot} (hm : ¬ Meet a b c d) (s : Spot) :
    passing a b s * passing c d s =
      passing a b s * passing c d (plumb a b s) + passing c d s * passing a b (plumb c d s) := by
  unfold passing
  by_cases h : PassesAbove a b s
  · by_cases k : PassesAbove c d s
    · have hne : height a b s.x ≠ height c d s.x := by
        intro he
        refine hm ⟨plumb a b s, onSegment_plumb h, ?_⟩
        have : plumb a b s = plumb c d s := by rw [plumb, plumb, he]
        rw [this]
        exact onSegment_plumb k
      rw [if_pos h, if_pos k, one_mul, one_mul, one_mul]
      rcases lt_or_gt_of_ne hne with hlt | hgt
      · have h₁ : PassesAbove c d (plumb a b s) := ⟨k.1, k.2.1, hlt⟩
        have h₂ : ¬ PassesAbove a b (plumb c d s) := fun l => absurd l.2.2 (not_lt.mpr hlt.le)
        rw [if_pos h₁, if_neg h₂, add_zero]
      · have h₁ : ¬ PassesAbove c d (plumb a b s) := fun l => absurd l.2.2 (not_lt.mpr hgt.le)
        have h₂ : PassesAbove a b (plumb c d s) := ⟨h.1, h.2.1, hgt⟩
        rw [if_neg h₁, if_pos h₂, zero_add]
    · rw [if_neg k, if_neg fun l => k (h.of_plumb l), mul_zero, zero_mul, add_zero]
  · by_cases k : PassesAbove c d s
    · rw [if_neg h, if_neg fun l => h (k.of_plumb l), zero_mul, zero_mul, mul_zero, add_zero]
    · rw [if_neg h, if_neg k, zero_mul, zero_mul, zero_mul, add_zero]

/-! ## sums over pairs of edges -/

section
variable {α β : Type}

theorem sum_map_mul_sum_map (l : List α) (m : List β) (f : α → ZMod 2) (g : β → ZMod 2) :
    (l.map f).sum * (m.map g).sum = (l.map fun a => (m.map fun b => f a * g b).sum).sum := by
  rw [← List.sum_map_mul_right]
  refine congrArg List.sum (List.map_congr_left fun a _ => ?_)
  rw [← List.sum_map_mul_left]

end

/-! ## the common spot -/

/-- what holds of two outlines none of whose edges meet and that cover no vertex of each other;
stated for one of the two -/
structure Aloof (ps qs : List Point) : Prop where
  not_meet : ∀ e ∈ edges ps, ∀ f ∈ edges qs, ¬ Meet e.1.spot e.2.spot f.1.spot f.2.spot
  not_covers : ∀ p ∈ ps, ¬ Covers qs p.spot

namespace Aloof
variable {ps qs : List Point}

/-- the edges of the other outline above a spot of this one are even in number -/
theorem crossings_eq_zero (h : Aloof ps qs) {e : Point × Point} (he : e ∈ edges ps) {s : Spot}
    (hs : OnSegment e.1.spot e.2.spot s) : (crossings qs s : ZMod 2) = 0 := by
  have hp : e.1 ∈ ps := by
    rw [← edges_map_fst ps]
    exact List.mem_map_of_mem he
  -- along the edge to its first vertex nothing of the other outline is met
  have hcongr : (crossings qs s : ZMod 2) = crossings qs e.1.spot := by
    refine crossings_congr fun f hf hm => ?_
    obtain ⟨t, h₁, h₂⟩ := hm
    exact h.not_meet e he f hf ⟨t, hs.trans h₂, h₁⟩
  rw [hcongr, ZMod.natCast_eq_zero_iff_even, ← Nat.not_odd_iff_even]
  exact fun hodd => h.not_covers e.1 hp (Or.inr hodd)

theorem not_onOutline (h : Aloof ps qs) {s : Spot} (hs : Covers qs s) : ¬ OnOutline ps s := by
  rintro ⟨e, he, hes⟩
  rcases hs with ⟨f, hf, hfs⟩ | hodd
  · exact h.not_meet e he f hf ⟨s, hes, hfs⟩
  · have h0 := h.crossings_eq_zero he hes
    rw [ZMod.natCast_eq_zero_iff_even] at h0
    exact Nat.not_even_iff_odd.mpr hodd h0

/-- seen from the edges of this outline above a spot, the edges of the other are even in number -/
theorem sum_plumb_eq_zero (h : Aloof ps qs) (s : Spot) :
    ((edges ps).map fun e => ((edges qs).map fun f => passing e.1.spot e.2.spot s *
      passing f.1.spot f.2.spot (plumb e.1.spot e.2.spot s)).sum).sum = 0 := by
  refine List.sum_eq_zero fun x hx => ?_
  obtain ⟨e, he, rfl⟩ := List.mem_map.mp hx
  rw [List.sum_map_mul_left, ← cast_crossings]
  by_cases hp : PassesAbove e.1.spot e.2.spot s
  · rw [h.crossings_eq_zero he (onSegment_plumb hp), mul_zero]
  · rw [passing, if_neg hp, zero_mul]

end Aloof

/-- **Two outlines that cover a common spot**: one covers a vertex of the other, or two edges
meet. -/
theorem exists_vertex_or_meet {ps qs : List Point} {s : Spot} (hp : Covers ps s)
    (hq : Covers qs s) : (∃ p ∈ ps, Covers qs p.spot) ∨ (∃ q ∈ qs, Covers ps q.spot) ∨
      ∃ e ∈ edges ps, ∃ f ∈ edges qs, Meet e.1.spot e.2.spot f.1.spot f.2.spot := by
  by_contra hn
  push Not at hn
  obtain ⟨hps, hqs, hm⟩ := hn
  have apart : Aloof ps qs := ⟨hm, hps⟩
  have apart' : Aloof qs ps := ⟨fun f hf e he h => hm e he f hf h.swap, hqs⟩
  have hoddp : (crossings ps s : ZMod 2) = 1 := by
    rw [ZMod.natCast_eq_one_iff_odd]
    exact hp.resolve_left (apart.not_onOutline hq)
  have hoddq : (crossings qs s : ZMod 2) = 1 := by
    rw [ZMod.natCast_eq_one_iff_odd]
    exact hq.resolve_left (apart'.not_onOutline hp)
  have pairs : (crossings ps s : ZMod 2) * crossings qs s = 0 := by
    rw [cast_crossings, cast_crossings, sum_map_mul_sum_map]
    rw [List.map_congr_left fun e he => congrArg List.sum (List.map_congr_left fun f hf =>
      passing_mul_passing (hm e he f hf) s)]
    rw [List.map_congr_left fun e _ => List.sum_map_add, List.sum_map_add,
      apart.sum_plumb_eq_zero, zero_add]
    -- the second sum, taken the other way round
    have hswap := Multiset.sum_map_sum_map (↑(edges ps)) (↑(edges qs))
      (f := fun e f : Point × Point => passing f.1.spot f.2.spot s *
        passing e.1.spot e.2.spot (plumb f.1.spot f.2.spot s))
    simp only [Multiset.map_coe, Multiset.sum_coe] at hswap
    rw [hswap]
    exact apart'.sum_plumb_eq_zero s
  rw [hoddp, hoddq] at pairs
  exact absurd pairs (by decide)

end Precinct.Plane
