import Std.Data.ExtTreeMap
import Precinct.World.Block

/-!
# Sparse maps over columns

* `Column.pack`, `Column.unpack`  a column as one 64-bit number and back.  Each half is taken
                   without its sign, so a negative `z` does not spill into the half of `x`;
* `Grid V`         a finite map from columns to values, kept by packed column.
-/

namespace Precinct
open Std (ExtTreeMap)

/-! ## packing -/

/-- a column as one number: `x` in the upper half, `z` in the lower -/
def Column.pack (c : Column) : UInt64 :=
  (c.x.toUInt32.toUInt64 <<< 32) ||| c.z.toUInt32.toUInt64

def Column.unpack (key : UInt64) : Column :=
  ⟨(key >>> 32).toUInt32.toInt32, key.toUInt32.toInt32⟩

/-! ## the map -/

/-- a finite map from columns to values -/
structure Grid (V : Type) where
  cells : ExtTreeMap UInt64 V compare := ∅

namespace Grid
variable {V : Type}

instance : Inhabited (Grid V) := ⟨{}⟩

def get? (g : Grid V) (c : Column) : Option V := g.cells[c.pack]?

/-- give a column a value; the value it had before -/
def insert (g : Grid V) (c : Column) (v : V) : Option V × Grid V :=
  (g.get? c, ⟨g.cells.insert c.pack v⟩)

def remove (g : Grid V) (c : Column) : Option V × Grid V := (g.get? c, ⟨g.cells.erase c.pack⟩)

def contains (g : Grid V) (c : Column) : Bool := g.cells.contains c.pack

def size (g : Grid V) : Nat := g.cells.size

def isEmpty (g : Grid V) : Bool := g.cells.isEmpty

def keys (g : Grid V) : List Column := g.cells.keys.map Column.unpack

def values (g : Grid V) : List V := g.cells.foldr (fun _ v rest => v :: rest) []

def clear (_ : Grid V) : Grid V := {}

end Grid
end Precinct
