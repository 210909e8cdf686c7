/-!
# Blocks and columns

The world is a grid of blocks with 32-bit coordinates; `y` is the height.  Seen from above it is cut
into columns of 16 by 16 blocks.

* `Block.column`     the column a block stands in.  The shift rounds toward negative infinity, so
                     block `-1` stands in column `-1` and not in column `0`;
* `Column.minBlock`, `Column.maxBlock`  the two extreme blocks of a column at one height.  The shift
                     back drops high bits; its low four bits are zero, so adding 15 cannot overflow.
-/

namespace Precinct

/-- a point of the world -/
structure Block where
  x : Int32
  y : Int32
  z : Int32
  deriving DecidableEq, Inhabited, Repr

/-- a column of 16 by 16 blocks, of unlimited height -/
structure Column where
  x : Int32
  z : Int32
  deriving DecidableEq, Inhabited, Repr

/-- how many bits a block coordinate is shifted by to get its column -/
def columnShift : Int32 := 4

def columnSize : Int32 := 16

/-! ## blocks -/

def Block.column (b : Block) : Column := ⟨b.x >>> columnShift, b.z >>> columnShift⟩

/-- the smaller of two blocks in every coordinate -/
def Block.meet (a b : Block) : Block := ⟨min a.x b.x, min a.y b.y, min a.z b.z⟩

/-- the larger of two blocks in every coordinate -/
def Block.join (a b : Block) : Block := ⟨max a.x b.x, max a.y b.y, max a.z b.z⟩

/-- the smaller of two coordinates is no larger than the larger one -/
theorem min_le_max (a b : Int32) : min a b ≤ max a b := by
  show (if a ≤ b then a else b) ≤ (if a ≤ b then b else a)
  split <;> rename_i h <;> simp only [Int32.le_iff_toInt_le] at * <;> omega

def digits (n : Int32) : String := toString n.toInt

/-- a block as `(x, y, z)` -/
def Block.text (b : Block) : String :=
  "(" ++ digits b.x ++ ", " ++ digits b.y ++ ", " ++ digits b.z ++ ")"

/-! ## columns -/

/-- the lowest block of a column at a height -/
def Column.minBlock (c : Column) (y : Int32) : Block :=
  ⟨c.x <<< columnShift, y, c.z <<< columnShift⟩

/-- a shifted coordinate is a multiple of the width of a column -/
theorem dvd_toInt_shiftLeft (n : Int32) : (16 : Int) ∣ (n <<< columnShift).toInt := by
  have h : (n <<< columnShift).toInt = (n.toBitVec <<< (4 : Nat)).toInt := by
    rw [← Int32.toInt_toBitVec, Int32.toBitVec_shiftLeft]
    rfl
  rw [h, BitVec.toInt_shiftLeft, Int.bmod_def]
  have : ((n.toBitVec.toNat <<< 4 : Nat) : Int) = 16 * n.toBitVec.toNat := by
    rw [Nat.shiftLeft_eq]; omega
  split <;> omega

/-- adding 15 to a shifted coordinate stays in range -/
theorem toInt_shiftLeft_add (n : Int32) :
    ((n <<< columnShift) + (columnSize - 1)).toInt = (n <<< columnShift).toInt + 15 := by
  have hdvd := dvd_toInt_shiftLeft n
  have hlt := Int32.toInt_lt (n <<< columnShift)
  have hle := Int32.le_toInt (n <<< columnShift)
  have h15 : (columnSize - 1).toInt = 15 := by decide
  rw [Int32.toInt_add, h15]
  generalize (n <<< columnShift).toInt = v at *
  exact Int.bmod_eq_of_le (by omega) (by omega)

/-- the highest block of a column at a height -/
def Column.maxBlock (c : Column) (y : Int32) : Block :=
  ⟨(c.x <<< columnShift) + (columnSize - 1), y, (c.z <<< columnShift) + (columnSize - 1)⟩

/-- a column as `[x, z]` -/
def Column.text (c : Column) : String := "[" ++ digits c.x ++ ", " ++ digits c.z ++ "]"

/-- columns row by row: by `x`, then by `z` -/
def Column.Before (a b : Column) : Prop := a.x < b.x ∨ (a.x = b.x ∧ a.z < b.z)

instance (a b : Column) : Decidable (a.Before b) := inferInstanceAs (Decidable (_ ∨ _))

end Precinct
