import Precinct.Region.Name
import Precinct.Region.Shape

/-!
# Regions

A region is a named volume with a priority and, maybe, the name of a parent.

* `Region.cuboid`, `Region.polygon`  the two ways to describe one; a bad name is reported before too
                       few vertices;
* `Region.column`      the throwaway region over a whole column;
* `Region.contains`    exact containment; the box around the shape is asked first;
* `Region.intersects`  whether two regions may share a block.  It never says no when they do: the
                       cache relies on that to sort out columns;
* `Region.layerOrder`  how overlapping regions are layered: higher priority first, ties by name.

The box around the shape is kept beside it, with the proof that it is that box.
-/

namespace Precinct
open Plane (Point)

/-- a named volume -/
structure Region where
  id : String
  priority : Int32
  parent : Option String
  shape : Shape
  bounds : Box
  bounds_eq : bounds = shape.bounds
  proper : shape.Proper
  deriving DecidableEq

namespace Region

/-! ## making regions -/

/-- a region of a proper shape, without parent and with priority zero -/
def ofShape (id : String) (shape : Shape) (proper : shape.Proper) : Region :=
  ⟨id, 0, none, shape, shape.bounds, rfl, proper⟩

/-- the box of two corners is a proper shape -/
theorem proper_ofCorners (a b : Block) :
    (Shape.cuboid (Box.ofCorners a b).min (Box.ofCorners a b).max).Proper :=
  ⟨min_le_max a.x b.x, min_le_max a.y b.y, min_le_max a.z b.z⟩

def cuboid (id : String) (a b : Block) : Except RegionError Region := do
  let name ← normalizeName id
  return ofShape name _ (proper_ofCorners a b)

/-- the polygon with an outline of at least three vertices, between two heights in any order -/
def polygon (id : String) (outline : List Point) (y₁ y₂ : Int32) : Except RegionError Region := do
  let name ← normalizeName id
  if h : 3 ≤ outline.length then
    return ofShape name (.polygon outline (min y₁ y₂) (max y₁ y₂)) ⟨h, min_le_max y₁ y₂⟩
  else
    .error (.tooFewPoints name outline.length)

/-- the highest coordinate of a column is no smaller than its lowest -/
theorem shiftLeft_le_shiftLeft_add (n : Int32) :
    n <<< columnShift ≤ (n <<< columnShift) + (columnSize - 1) := by
  rw [Int32.le_iff_toInt_le, toInt_shiftLeft_add]
  omega

theorem proper_column (c : Column) : (Shape.cuboid c.bounds.min c.bounds.max).Proper :=
  ⟨shiftLeft_le_shiftLeft_add c.x, (by decide : Int32.minValue ≤ Int32.maxValue),
    shiftLeft_le_shiftLeft_add c.z⟩

/-- the region over a whole column, which gathers whatever may hold a block of it -/
def column (c : Column) : Region :=
  ofShape ("__column_" ++ digits c.x ++ "_" ++ digits c.z) _ (proper_column c)

def withPriority (r : Region) (priority : Int32) : Region := { r with priority }

/-- the region below another one, given by its name -/
def withParent (r : Region) (parent : String) : Region :=
  { r with parent := some (Text.lowerCase parent) }

def withoutParent (r : Region) : Region := { r with parent := none }

/-! ## geometry -/

def contains (r : Region) (p : Block) : Bool :=
  r.bounds.contains p &&
    match r.shape with
    | .cuboid _ _ => true
    | .polygon outline _ _ => Plane.polygonContains outline p.x p.z

/-- whether the footprints of two regions meet -/
def footprintsMeet (a b : Shape) : Bool :=
  (a.footprint.any fun p => b.footprintContains p.x p.z) ||
    (b.footprint.any fun p => a.footprintContains p.x p.z) ||
    Plane.outlinesCross a.footprint b.footprint

/-- whether two regions may share a block -/
def intersects (a b : Region) : Bool :=
  a.bounds.overlaps b.bounds &&
    ((a.shape.isCuboid && b.shape.isCuboid) || footprintsMeet a.shape b.shape)

/-! ## layers -/

/-- the order in which overlapping regions are layered -/
def layerOrder (a b : Region) : Ordering := (compare b.priority a.priority).then (compare a.id b.id)

/-- whether a region is layered no later than another -/
def layerLe (a b : Region) : Bool := (a.layerOrder b).isLE

/-- regions in layer order, regions of one rank in the order they had -/
def inLayers (regions : List Region) : List Region := regions.mergeSort layerLe

end Region
end Precinct
