import Precinct.World.Block

/-!
# Boxes of blocks

A box is given by its two extreme blocks, both inside it.

* `Box.ofCorners`  the box of two arbitrary corners;
* `Box.columns`    the columns the box touches, row by row;
* `Box.firstColumns`  the same list cut short without building it, by the position of a column in
                      it.
-/

namespace Precinct

/-- a box between two extreme blocks, both included -/
structure Box where
  min : Block
  max : Block
  deriving DecidableEq, Inhabited, Repr

namespace Box

def ofCorners (a b : Block) : Box := ⟨a.meet b, a.join b⟩

def contains (box : Box) (p : Block) : Bool :=
  box.min.x ≤ p.x && p.x ≤ box.max.x && box.min.y ≤ p.y && p.y ≤ box.max.y &&
    box.min.z ≤ p.z && p.z ≤ box.max.z

def overlaps (a b : Box) : Bool :=
  a.min.x ≤ b.max.x && b.min.x ≤ a.max.x && a.min.y ≤ b.max.y && b.min.y ≤ a.max.y &&
    a.min.z ≤ b.max.z && b.min.z ≤ a.max.z

/-! ## columns -/

/-- how many coordinates lie between two, both included -/
def span (lo hi : Int32) : Nat := (hi.toInt - lo.toInt + 1).toNat

/-- the coordinate `i` places after another -/
def shifted (lo : Int32) (i : Nat) : Int32 := Int32.ofInt (lo.toInt + i)

def ticks (lo hi : Int32) : List Int32 := (List.range (span lo hi)).map (shifted lo)

/-- the columns that the box touches, by `x` and then by `z` -/
def columns (box : Box) : List Column :=
  (ticks box.min.column.x box.max.column.x).flatMap fun x =>
    (ticks box.min.column.z box.max.column.z).map fun z => ⟨x, z⟩

def columnCount (box : Box) : Nat :=
  span box.min.column.x box.max.column.x * span box.min.column.z box.max.column.z

/-- the column at a position in the list of columns -/
def columnAt (box : Box) (i : Nat) : Column :=
  let depth := span box.min.column.z box.max.column.z
  ⟨shifted box.min.column.x (i / depth), shifted box.min.column.z (i % depth)⟩

def firstColumns (box : Box) (n : Nat) : List Column :=
  (List.range (Nat.min n box.columnCount)).map box.columnAt

end Box

/-- a whole column as a box over every height -/
def Column.bounds (c : Column) : Box :=
  ⟨c.minBlock Int32.minValue, c.maxBlock Int32.maxValue⟩

end Precinct
