/-!
# Polygons in the horizontal plane

* `Plane.edges`        the closed outline of a list of vertices, edge by edge;
* `Plane.polygonContains`  whether a point is on the outline or inside it by the parity of the edges
                       that pass above it.

`sweep` walks the vertices once, with the vertex before the current one and the parity so far.  An
edge counts when the point is in its half-open span of `x` (left end excluded), so a vertex shared
by two edges counts once, and an upright edge never counts.  A point with cross product zero in the
closed span is on the line of the edge; it is on the edge itself when its `z` lies between the ends.

All products are taken of integers without bounds, so they are exact for every coordinate.
-/

namespace Precinct.Plane

/-- a vertex of an outline, seen from above -/
structure Point where
  x : Int32
  z : Int32
  deriving DecidableEq, Inhabited, Repr

/-- the edges from every vertex to the next, the last vertex joined to the first -/
def edges (points : List Point) : List (Point × Point) :=
  points.zip (points.tail ++ points.take 1)

/-- twice the area, with its sign, of the triangle from `a` to `b` to the point `(x, z)` -/
def cross (a b : Point) (x z : Int) : Int :=
  (z - a.z.toInt) * (b.x.toInt - a.x.toInt) - (b.z.toInt - a.z.toInt) * (x - a.x.toInt)

/-- the two ends of an edge, the one with the smaller `x` first -/
def leftToRight (p q : Point) : Point × Point := if q.x > p.x then (p, q) else (q, p)

/-- the rest of a walk around an outline: `prev` was the last vertex, `inside` the parity so far -/
def sweep (x z : Int32) (prev : Point) : List Point → Bool → Bool
  | [], inside => inside
  | cur :: rest, inside =>
    if cur.x = x ∧ cur.z = z then true
    else
      let (a, b) := leftToRight prev cur
      if a.x ≤ x ∧ x ≤ b.x then
        let area := cross a b x.toInt z.toInt
        if area = 0 then
          if decide (a.z ≤ z) = decide (z ≤ b.z) then true else sweep x z cur rest inside
        else if area < 0 ∧ a.x ≠ x then sweep x z cur rest (!inside)
        else sweep x z cur rest inside
      else sweep x z cur rest inside

/-- whether a point is on the outline or inside it -/
def polygonContains (points : List Point) (x z : Int32) : Bool :=
  match points.getLast? with
  | none => false
  | some last => sweep x z last points false

end Precinct.Plane
