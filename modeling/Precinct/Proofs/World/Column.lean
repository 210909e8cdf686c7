import Mathlib
import Precinct.World.Box

/-!
# Blocks and their columns

* `toInt_min`, `toInt_max`  the smaller and the larger of two coordinates as integers;
* `foldl_min_le`, `le_foldl_max`  the smallest and the largest of any number of coordinates;
* `toInt_shiftRight`        a coordinate shifted to the right is the quotient by 16, rounded down;
* `toInt_shiftLeft`         shifted to the left it is the product by 16, if that is a coordinate;
* `Column.bounds_contains`  every block is in the box of its column;
* `Column.InWorld`          a column that has blocks (`Block.inWorld_column`);
* `Column.bounds_contains_iff`  the box of any column is that of the column its lowest block stands in,
                            for the bits that the shift drops do not come back;
* `Column.bounds_partition`  **the boxes of the columns in the world part its blocks.**
-/

namespace Precinct

/-! ## coordinates as integers -/

theorem toInt_min (a b : Int32) : (min a b).toInt = min a.toInt b.toInt := by
  show (if a ≤ b then a else b).toInt = _
  by_cases h : a ≤ b
  · rw [if_pos h, min_eq_left (Int32.le_iff_toInt_le.mp h)]
  · rw [if_neg h, min_eq_right (le_of_not_ge fun k => h (Int32.le_iff_toInt_le.mpr k))]

theorem toInt_max (a b : Int32) : (max a b).toInt = max a.toInt b.toInt := by
  show (if a ≤ b then b else a).toInt = _
  by_cases h : a ≤ b
  · rw [if_pos h, max_eq_right (Int32.le_iff_toInt_le.mp h)]
  · rw [if_neg h, max_eq_left (le_of_not_ge fun k => h (Int32.le_iff_toInt_le.mpr k))]

theorem toInt_shiftRight (n : Int32) : (n >>> columnShift).toInt = n.toInt / 16 := by
  rw [← Int32.toInt_toBitVec, Int32.toBitVec_shiftRight]
  show (n.toBitVec.sshiftRight 4).toInt = _
  rw [BitVec.toInt_sshiftRight, Int.shiftRight_eq_div_pow, Int32.toInt_toBitVec]
  rfl

theorem toInt_shiftLeft {n : Int32} (h₁ : -2 ^ 27 ≤ n.toInt) (h₂ : n.toInt < 2 ^ 27) :
    (n <<< columnShift).toInt = n.toInt * 16 := by
  rw [← Int32.toInt_toBitVec, Int32.toBitVec_shiftLeft]
  show (n.toBitVec <<< 4).toInt = _
  have h16 : (BitVec.twoPow 32 4).toInt = 16 := by decide
  rw [BitVec.shiftLeft_eq_mul_twoPow, BitVec.toInt_mul, h16, Int32.toInt_toBitVec]
  exact Int.bmod_eq_of_le (by omega) (by omega)

/-- the smallest of some coordinates is no larger than any of them -/
theorem foldl_min_le {α : Type} (f : α → Int32) (l : List α) (m : Int32) :
    (l.foldl (fun m a => min m (f a)) m).toInt ≤ m.toInt ∧
      ∀ a ∈ l, (l.foldl (fun m a => min m (f a)) m).toInt ≤ (f a).toInt := by
  induction l generalizing m with
  | nil => exact ⟨le_rfl, fun a ha => absurd ha List.not_mem_nil⟩
  | cons b l ih =>
    obtain ⟨hm, hl⟩ := ih (min m (f b))
    rw [toInt_min] at hm
    refine ⟨hm.trans (min_le_left _ _), fun a ha => ?_⟩
    rcases List.mem_cons.mp ha with rfl | ha
    · exact hm.trans (min_le_right _ _)
    · exact hl a ha

theorem le_foldl_max {α : Type} (f : α → Int32) (l : List α) (m : Int32) :
    m.toInt ≤ (l.foldl (fun m a => max m (f a)) m).toInt ∧
      ∀ a ∈ l, (f a).toInt ≤ (l.foldl (fun m a => max m (f a)) m).toInt := by
  induction l generalizing m with
  | nil => exact ⟨le_rfl, fun a ha => absurd ha List.not_mem_nil⟩
  | cons b l ih =>
    obtain ⟨hm, hl⟩ := ih (max m (f b))
    rw [toInt_max] at hm
    refine ⟨(le_max_left _ _).trans hm, fun a ha => ?_⟩
    rcases List.mem_cons.mp ha with rfl | ha
    · exact (le_max_right _ _).trans hm
    · exact hl a ha

/-! ## columns -/

/-- the coordinates of a column are small enough for its blocks to be blocks -/
theorem toInt_column_shift (n : Int32) :
    ((n >>> columnShift) <<< columnShift).toInt = n.toInt / 16 * 16 := by
  have h₁ := Int32.le_toInt n
  have h₂ := Int32.toInt_lt n
  rw [toInt_shiftLeft, toInt_shiftRight]
  · rw [toInt_shiftRight]; omega
  · rw [toInt_shiftRight]; omega

/-- a coordinate lies between the ends of its column -/
theorem column_span (n : Int32) :
    (n >>> columnShift) <<< columnShift ≤ n ∧
      n ≤ ((n >>> columnShift) <<< columnShift) + (columnSize - 1) := by
  rw [Int32.le_iff_toInt_le, Int32.le_iff_toInt_le, toInt_shiftLeft_add, toInt_column_shift]
  omega

theorem Box.contains_iff {box : Box} {p : Block} : box.contains p = true ↔
    (box.min.x ≤ p.x ∧ p.x ≤ box.max.x) ∧ (box.min.y ≤ p.y ∧ p.y ≤ box.max.y) ∧
      box.min.z ≤ p.z ∧ p.z ≤ box.max.z := by
  simp only [Box.contains, Bool.and_eq_true, decide_eq_true_eq, and_assoc]

theorem Column.bounds_contains (p : Block) : p.column.bounds.contains p = true :=
  Box.contains_iff.mpr ⟨column_span p.x,
    ⟨Int32.minValue_le p.y, Int32.le_maxValue p.y⟩, column_span p.z⟩

theorem Box.overlaps_iff {a b : Box} : a.overlaps b = true ↔
    (a.min.x ≤ b.max.x ∧ b.min.x ≤ a.max.x) ∧ (a.min.y ≤ b.max.y ∧ b.min.y ≤ a.max.y) ∧
      a.min.z ≤ b.max.z ∧ b.min.z ≤ a.max.z := by
  simp only [Box.overlaps, Bool.and_eq_true, decide_eq_true_eq, and_assoc]

theorem Box.overlaps_of_contains {a b : Box} {p : Block} (ha : a.contains p = true)
    (hb : b.contains p = true) : a.overlaps b = true := by
  obtain ⟨ax, ay, az⟩ := Box.contains_iff.mp ha
  obtain ⟨bx, by', bz⟩ := Box.contains_iff.mp hb
  refine Box.overlaps_iff.mpr ⟨⟨?_, ?_⟩, ⟨?_, ?_⟩, ?_, ?_⟩
  · exact Int32.le_trans ax.1 bx.2
  · exact Int32.le_trans bx.1 ax.2
  · exact Int32.le_trans ay.1 by'.2
  · exact Int32.le_trans by'.1 ay.2
  · exact Int32.le_trans az.1 bz.2
  · exact Int32.le_trans bz.1 az.2

/-- two stretches that overlap have a coordinate in common -/
theorem exists_between {lo₁ hi₁ lo₂ hi₂ : Int32} (h₁ : lo₁ ≤ hi₁) (h₂ : lo₂ ≤ hi₂)
    (h : lo₁ ≤ hi₂ ∧ lo₂ ≤ hi₁) : ∃ n, (lo₁ ≤ n ∧ n ≤ hi₁) ∧ lo₂ ≤ n ∧ n ≤ hi₂ := by
  rcases Int32.le_total lo₁ lo₂ with hle | hle
  · exact ⟨lo₂, ⟨hle, h.2⟩, Int32.le_refl lo₂, h₂⟩
  · exact ⟨lo₁, ⟨Int32.le_refl lo₁, h₁⟩, hle, h.1⟩

/-! ## the box of a column -/

/-- whether the column is that of some blocks: its coordinates are small enough to be quotients by 16 -/
def Column.InWorld (c : Column) : Prop :=
  (-2 ^ 27 ≤ c.x.toInt ∧ c.x.toInt < 2 ^ 27) ∧ -2 ^ 27 ≤ c.z.toInt ∧ c.z.toInt < 2 ^ 27

instance (c : Column) : Decidable c.InWorld := inferInstanceAs (Decidable (_ ∧ _))

/-- a shifted coordinate is a multiple of 16, so at least 15 more of them are left -/
theorem saddOverflow_shiftLeft (n : Int32) :
    (n <<< columnShift).toBitVec.saddOverflow (columnSize - 1).toBitVec = false := by
  have hdvd := dvd_toInt_shiftLeft n
  have hle := Int32.le_toInt (n <<< columnShift)
  have hlt := Int32.toInt_lt (n <<< columnShift)
  have h15 : (columnSize - 1).toInt = 15 := by decide
  rw [BitVec.saddOverflow, Int32.toInt_toBitVec, Int32.toInt_toBitVec, h15, Bool.or_eq_false_iff]
  constructor
  · rw [decide_eq_false_iff_not]
    omega
  · rw [decide_eq_false_iff_not]
    omega

/-- what lies between the ends of a column are the coordinates with the quotient of the lower end -/
theorem column_span_iff (m n : Int32) :
    (m <<< columnShift ≤ n ∧ n ≤ (m <<< columnShift) + (columnSize - 1)) ↔
      n >>> columnShift = (m <<< columnShift) >>> columnShift := by
  have hdvd := dvd_toInt_shiftLeft m
  rw [Int32.le_iff_toInt_le, Int32.le_iff_toInt_le, toInt_shiftLeft_add, ← Int32.toInt_inj,
    toInt_shiftRight, toInt_shiftRight]
  omega

/-- **The blocks in the box of a column** are those that stand in the column of its lowest block.  The
column itself may be another one, if it is not in the world. -/
theorem Column.bounds_contains_iff (c : Column) (p : Block) :
    c.bounds.contains p = true ↔ p.column = (c.minBlock p.y).column := by
  rw [Box.contains_iff]
  show (c.x <<< columnShift ≤ p.x ∧ p.x ≤ (c.x <<< columnShift) + (columnSize - 1)) ∧
    (Int32.minValue ≤ p.y ∧ p.y ≤ Int32.maxValue) ∧
      c.z <<< columnShift ≤ p.z ∧ p.z ≤ (c.z <<< columnShift) + (columnSize - 1) ↔ _
  rw [column_span_iff, column_span_iff]
  show _ ↔ (⟨_, _⟩ : Column) = ⟨_, _⟩
  rw [Column.mk.injEq]
  exact ⟨fun h => ⟨h.1, h.2.2⟩, fun h =>
    ⟨h.1, ⟨Int32.minValue_le p.y, Int32.le_maxValue p.y⟩, h.2⟩⟩

theorem Column.InWorld.column_minBlock {c : Column} (h : c.InWorld) (y : Int32) :
    (c.minBlock y).column = c := by
  have hback : ∀ {n : Int32}, -2 ^ 27 ≤ n.toInt → n.toInt < 2 ^ 27 →
      (n <<< columnShift) >>> columnShift = n := fun h₁ h₂ => by
    rw [← Int32.toInt_inj, toInt_shiftRight, toInt_shiftLeft h₁ h₂]
    omega
  show (⟨_, _⟩ : Column) = ⟨c.x, c.z⟩
  rw [Column.mk.injEq]
  exact ⟨hback h.1.1 h.1.2, hback h.2.1 h.2.2⟩

theorem Block.inWorld_column (p : Block) : p.column.InWorld := by
  have hquotient : ∀ n : Int32,
      -2 ^ 27 ≤ (n >>> columnShift).toInt ∧ (n >>> columnShift).toInt < 2 ^ 27 := fun n => by
    have h₁ := Int32.le_toInt n
    have h₂ := Int32.toInt_lt n
    rw [toInt_shiftRight]
    omega
  exact ⟨hquotient p.x, hquotient p.z⟩

theorem Column.InWorld.bounds_contains_iff {c : Column} (h : c.InWorld) (p : Block) :
    c.bounds.contains p = true ↔ p.column = c := by
  rw [Column.bounds_contains_iff, h.column_minBlock]

/-- the box of a column is 16 blocks wide both ways, and of every height -/
theorem Column.bounds_shape (c : Column) :
    (c.bounds.min.x ≤ c.bounds.max.x ∧ c.bounds.min.z ≤ c.bounds.max.z) ∧
    (Box.span c.bounds.min.x c.bounds.max.x = 16 ∧ Box.span c.bounds.min.z c.bounds.max.z = 16) ∧
    c.bounds.min.y = Int32.minValue ∧ c.bounds.max.y = Int32.maxValue := by
  have hwide : ∀ n : Int32, n <<< columnShift ≤ (n <<< columnShift) + (columnSize - 1) ∧
      Box.span (n <<< columnShift) ((n <<< columnShift) + (columnSize - 1)) = 16 := fun n => by
    rw [Int32.le_iff_toInt_le, Box.span, toInt_shiftLeft_add]
    omega
  exact ⟨⟨(hwide c.x).1, (hwide c.z).1⟩, ⟨(hwide c.x).2, (hwide c.z).2⟩, rfl, rfl⟩

/-- **The boxes of the columns in the world part its blocks.**  No number that makes up the box of a
column leaves its range, wherever the column is, and the box is well-formed, 16 blocks wide both ways and
of every height.  A block is in the box of a column in the world just if it stands in the column, hence
in the box of exactly one of them; in a column that is not in the world no block stands. -/
theorem Column.bounds_partition :
    (∀ (c : Column) (y : Int32),
      (c.minBlock y).x.toBitVec.saddOverflow (columnSize - 1).toBitVec = false ∧
      (c.minBlock y).z.toBitVec.saddOverflow (columnSize - 1).toBitVec = false ∧
      (c.maxBlock y).x.toInt = (c.minBlock y).x.toInt + 15 ∧
      (c.maxBlock y).z.toInt = (c.minBlock y).z.toInt + 15) ∧
    (∀ c : Column,
      (c.bounds.min.x ≤ c.bounds.max.x ∧ c.bounds.min.z ≤ c.bounds.max.z) ∧
      (Box.span c.bounds.min.x c.bounds.max.x = 16 ∧ Box.span c.bounds.min.z c.bounds.max.z = 16) ∧
      c.bounds.min.y = Int32.minValue ∧ c.bounds.max.y = Int32.maxValue) ∧
    (∀ c : Column, c.InWorld → ∀ p, c.bounds.contains p = true ↔ p.column = c) ∧
    (∀ p : Block, ∃! c : Column, c.InWorld ∧ c.bounds.contains p = true) ∧
    ∀ c : Column, ¬c.InWorld → ∀ p : Block, p.column ≠ c := by
  refine ⟨fun c y => ⟨saddOverflow_shiftLeft c.x, saddOverflow_shiftLeft c.z,
    toInt_shiftLeft_add c.x, toInt_shiftLeft_add c.z⟩, Column.bounds_shape,
    fun c h p => h.bounds_contains_iff p, fun p => ?_, fun c h p he => h (he ▸ p.inWorld_column)⟩
  refine ⟨p.column, ⟨p.inWorld_column, Column.bounds_contains p⟩, fun c ⟨h, hc⟩ => ?_⟩
  exact ((h.bounds_contains_iff p).mp hc).symm

/-- a block at two edges of the world is in the box of its column.  The column next to it beyond the
world has a box too, in which are blocks of the opposite edge -/
theorem Column.bounds_at_edges :
    (⟨-134217728, 134217727⟩ : Column).InWorld ∧
    (⟨-134217728, 134217727⟩ : Column).bounds.contains ⟨-2147483648, 7, 2147483647⟩ = true ∧
    ¬(⟨-134217728, 134217728⟩ : Column).InWorld ∧
    (⟨-134217728, 134217728⟩ : Column).bounds.contains ⟨-2147483648, 7, -2147483648⟩ = true ∧
    (⟨-2147483648, 7, -2147483648⟩ : Block).column ≠ ⟨-134217728, 134217728⟩ := by
  have hin : (⟨-134217728, 134217727⟩ : Column).InWorld := by decide
  have hout : ¬(⟨-134217728, 134217728⟩ : Column).InWorld := by decide
  obtain ⟨-, -, hcontains, -, hnone⟩ := Column.bounds_partition
  exact ⟨hin, (hcontains _ hin _).mpr (by decide), hout, by decide, hnone _ hout _⟩

end Precinct
