import Mathlib
import Precinct.Proofs.World.Column

/-!
# The columns that a box touches

* `Box.mem_ticks`, `Box.pairwise_ticks`  the coordinates between two, from the lower to the higher;
* `exists_column`       a column between those of two blocks is that of a block between them;
* `Box.pairwise_columns`  the columns of a box come row by row, so none comes twice;
* `Box.mem_columns_ofCorners`  **the columns of a box are those that its blocks stand in.**

Only the last needs that the box is in order, which that of two corners always is.  In a box out of order
no block is, but both its ends may stand in one column.
-/

namespace Precinct
variable {lo hi n : Int32}

/-- between two coordinates there is one in each column between theirs: the first of the column, or the
lower of the two -/
theorem exists_column {m : Int32} (h : lo ≤ hi) (hlo : (lo >>> columnShift).toInt ≤ m.toInt)
    (hhi : m.toInt ≤ (hi >>> columnShift).toInt) :
    ∃ n, (lo ≤ n ∧ n ≤ hi) ∧ n >>> columnShift = m := by
  rw [toInt_shiftRight] at hlo hhi
  rw [Int32.le_iff_toInt_le] at h
  have h₁ := Int32.le_toInt lo
  have h₂ := Int32.toInt_lt hi
  have hn : (Int32.ofInt (max lo.toInt (16 * m.toInt))).toInt = max lo.toInt (16 * m.toInt) :=
    Int32.toInt_ofInt_of_le (by omega) (by omega)
  refine ⟨Int32.ofInt (max lo.toInt (16 * m.toInt)), ?_, ?_⟩
  · rw [Int32.le_iff_toInt_le, Int32.le_iff_toInt_le, hn]
    omega
  · rw [← Int32.toInt_inj, toInt_shiftRight, hn]
    omega

namespace Box

/-! ## ticks -/

theorem toInt_shifted {i : Nat} (h : i < span lo hi) : (shifted lo i).toInt = lo.toInt + i := by
  have hlo := Int32.le_toInt lo
  have hhi := Int32.toInt_lt hi
  rw [span, Int.lt_toNat] at h
  exact Int32.toInt_ofInt_of_le (by omega) (by omega)

theorem mem_ticks : n ∈ ticks lo hi ↔ lo.toInt ≤ n.toInt ∧ n.toInt ≤ hi.toInt := by
  rw [ticks, List.mem_map]
  constructor
  · rintro ⟨i, hi', rfl⟩
    have hi' := List.mem_range.mp hi'
    rw [toInt_shifted hi']
    rw [span, Int.lt_toNat] at hi'
    omega
  · rintro ⟨hlo, hhi⟩
    have hlt : (n.toInt - lo.toInt).toNat < span lo hi := by
      rw [span]
      omega
    refine ⟨_, List.mem_range.mpr hlt, Int32.toInt_inj.mp ?_⟩
    rw [toInt_shifted hlt]
    omega

theorem length_ticks (lo hi : Int32) : (ticks lo hi).length = span lo hi := by
  rw [ticks, List.length_map, List.length_range]

theorem pairwise_ticks (lo hi : Int32) : (ticks lo hi).Pairwise (· < ·) := by
  rw [ticks, List.pairwise_map]
  refine List.Pairwise.imp_of_mem (fun {i j} hi' hj hlt => ?_) List.pairwise_lt_range
  rw [Int32.lt_iff_toInt_lt, toInt_shifted (List.mem_range.mp hi'),
    toInt_shifted (List.mem_range.mp hj)]
  omega

theorem nodup_ticks (lo hi : Int32) : (ticks lo hi).Nodup :=
  (pairwise_ticks lo hi).imp Int32.ne_of_lt

/-! ## columns -/

theorem pairwise_columns (box : Box) : box.columns.Pairwise Column.Before := by
  rw [columns, List.pairwise_flatMap]
  constructor
  · intro x _
    rw [List.pairwise_map]
    exact (pairwise_ticks _ _).imp fun hlt => Or.inr ⟨rfl, hlt⟩
  · refine (pairwise_ticks _ _).imp fun hlt a ha b hb => ?_
    obtain ⟨z, -, rfl⟩ := List.mem_map.mp ha
    obtain ⟨z', -, rfl⟩ := List.mem_map.mp hb
    exact Or.inl hlt

theorem mem_columns {box : Box} {c : Column} : c ∈ box.columns ↔
    (box.min.column.x.toInt ≤ c.x.toInt ∧ c.x.toInt ≤ box.max.column.x.toInt) ∧
      box.min.column.z.toInt ≤ c.z.toInt ∧ c.z.toInt ≤ box.max.column.z.toInt := by
  simp only [columns, List.mem_flatMap, List.mem_map, mem_ticks]
  constructor
  · rintro ⟨x, hx, z, hz, rfl⟩
    exact ⟨hx, hz⟩
  · rintro ⟨hx, hz⟩
    exact ⟨c.x, hx, c.z, hz, rfl⟩

/-- **The columns of a box are those that its blocks stand in.** -/
theorem mem_columns_ofCorners (a b : Block) {c : Column} : c ∈ (ofCorners a b).columns ↔
    ∃ p, (ofCorners a b).contains p = true ∧ p.column = c := by
  rw [mem_columns]
  constructor
  · rintro ⟨⟨hx₁, hx₂⟩, hz₁, hz₂⟩
    obtain ⟨x, hx, hcx⟩ := exists_column (min_le_max a.x b.x) hx₁ hx₂
    obtain ⟨z, hz, hcz⟩ := exists_column (min_le_max a.z b.z) hz₁ hz₂
    refine ⟨⟨x, (a.meet b).y, z⟩,
      contains_iff.mpr ⟨hx, ⟨Int32.le_refl _, min_le_max a.y b.y⟩, hz⟩, ?_⟩
    show (⟨_, _⟩ : Column) = ⟨c.x, c.z⟩
    rw [Column.mk.injEq]
    exact ⟨hcx, hcz⟩
  · rintro ⟨p, hp, rfl⟩
    have hmono : ∀ {m n : Int32}, m ≤ n → (m >>> columnShift).toInt ≤ (n >>> columnShift).toInt := by
      intro m n hle
      rw [Int32.le_iff_toInt_le] at hle
      rw [toInt_shiftRight, toInt_shiftRight]
      omega
    obtain ⟨hx, -, hz⟩ := contains_iff.mp hp
    exact ⟨⟨hmono hx.1, hmono hx.2⟩, hmono hz.1, hmono hz.2⟩

end Box
end Precinct
