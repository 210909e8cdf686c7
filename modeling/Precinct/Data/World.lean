import Precinct.Data.Value
import Precinct.Region.Shape

/-!
# Places and shapes as values

* a block, a column and a box are structures, with the coordinates or the two extreme blocks as
  fields;
* a shape is a record of one member, whose name tells the kind and whose value has the fields, as a
  structure does (`Shape.toValue`, `Shape.ofValue?`);
* a vertex is a list of its two coordinates.
-/

namespace Precinct
open Data (Value Structured)
open Plane (Point)

instance : Structured Block where
  names := ["x", "y", "z"]
  parts b := [.ofInt32 b.x, .ofInt32 b.y, .ofInt32 b.z]
  ofParts? _
    | [x, y, z] => do return ⟨← (← x).int32?, ← (← y).int32?, ← (← z).int32?⟩
    | _ => none

instance : Structured Column where
  names := ["x", "z"]
  parts c := [.ofInt32 c.x, .ofInt32 c.z]
  ofParts? _
    | [x, z] => do return ⟨← (← x).int32?, ← (← z).int32?⟩
    | _ => none

instance : Structured Box where
  names := ["min", "max"]
  parts box := [Structured.toRecord box.min, Structured.toRecord box.max]
  ofParts? surplus
    | [min, max] => do
      return ⟨← Structured.read Block surplus (← min), ← Structured.read Block surplus (← max)⟩
    | _ => none

/-! ## shapes -/

def Plane.Point.toValue (p : Point) : Value := .list [.ofInt32 p.x, .ofInt32 p.z]

def Plane.Point.ofValue? : Value → Option Point
  | .list [x, z] => do return ⟨← x.int32?, ← z.int32?⟩
  | _ => none

def Plane.outlineOfValue? : Value → Option (List Point)
  | .list items => items.mapM Point.ofValue?
  | _ => none

namespace Shape

/-- a shape as a record of one member -/
def toValue : Shape → Value
  | cuboid min max =>
    .record [("Cuboid",
      .record [("min", Structured.toRecord min), ("max", Structured.toRecord max)])]
  | polygon outline minY maxY =>
    .record [("Polygon", .record [("points", .list (outline.map Point.toValue)),
      ("min_y", .ofInt32 minY), ("max_y", .ofInt32 maxY)])]

def cuboidOf? (fields : Value) : Option Shape := do
  match ← fields.parts? ["min", "max"] false with
  | [min, max] =>
    return cuboid (← Structured.read Block false (← min)) (← Structured.read Block false (← max))
  | _ => none

def polygonOf? (fields : Value) : Option Shape := do
  match ← fields.parts? ["points", "min_y", "max_y"] false with
  | [points, minY, maxY] =>
    return polygon (← Plane.outlineOfValue? (← points)) (← (← minY).int32?) (← (← maxY).int32?)
  | _ => none

/-- the one member names the kind, and no other may stand beside it -/
def ofValue? : Value → Option Shape
  | .record [("Cuboid", fields)] => cuboidOf? fields
  | .record [("Polygon", fields)] => polygonOf? fields
  | _ => none

end Shape
end Precinct
