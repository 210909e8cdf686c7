import Precinct.Plane.Segment
import Precinct.World.Box

/-!
# Shapes

A shape is a box, or a polygon seen from above between two heights.

* `Shape.bounds`      the smallest box around the shape (for a proper shape);
* `Shape.footprint`   the outline of the shape seen from above;
* `Shape.Proper`      what the makers of regions guarantee: the ends of a box are in order, a
                      polygon has at least three vertices and its heights are in order.
-/

namespace Precinct
open Plane (Point)

/-- the geometry of a region -/
inductive Shape where
  | cuboid (min max : Block)
  | polygon (outline : List Point) (minY maxY : Int32)
  deriving DecidableEq, Inhabited, Repr

namespace Shape

/-- the smallest box around a shape -/
def bounds : Shape → Box
  | cuboid min max => ⟨min, max⟩
  | polygon outline minY maxY =>
    ⟨⟨outline.foldl (fun m p => Min.min m p.x) Int32.maxValue, minY,
        outline.foldl (fun m p => Min.min m p.z) Int32.maxValue⟩,
      ⟨outline.foldl (fun m p => Max.max m p.x) Int32.minValue, maxY,
        outline.foldl (fun m p => Max.max m p.z) Int32.minValue⟩⟩

/-- the outline of a shape seen from above -/
def footprint : Shape → List Point
  | cuboid min max => [⟨min.x, min.z⟩, ⟨max.x, min.z⟩, ⟨max.x, max.z⟩, ⟨min.x, max.z⟩]
  | polygon outline _ _ => outline

/-- whether a point is in the footprint, its border included -/
def footprintContains (shape : Shape) (x z : Int32) : Bool :=
  match shape with
  | cuboid min max => min.x ≤ x && x ≤ max.x && min.z ≤ z && z ≤ max.z
  | polygon outline _ _ => Plane.polygonContains outline x z

def isCuboid : Shape → Bool
  | cuboid _ _ => true
  | polygon _ _ _ => false

/-- what every shape of a region satisfies -/
def Proper : Shape → Prop
  | cuboid min max => min.x ≤ max.x ∧ min.y ≤ max.y ∧ min.z ≤ max.z
  | polygon outline minY maxY => 3 ≤ outline.length ∧ minY ≤ maxY

instance (shape : Shape) : Decidable shape.Proper := by
  cases shape <;> unfold Proper <;> exact inferInstance

end Shape
end Precinct
