import Precinct.Plane.Polygon

/-!
# Crossing segments

* `Plane.orientation`   on which side of a line a point lies;
* `Plane.segmentsCross` whether two closed segments share a point.  If the ends of each lie on
                        different sides of the other they do; all that this misses are ends that lie
                        on the other segment, which `withinSpan` finds.
-/

namespace Precinct.Plane

/-- the side of the line from `p` to `q` that `r` lies on: `1`, `-1`, or `0` on the line itself -/
def orientation (p q r : Point) : Int :=
  ((q.x.toInt - p.x.toInt) * (r.z.toInt - p.z.toInt) -
    (q.z.toInt - p.z.toInt) * (r.x.toInt - p.x.toInt)).sign

/-- whether `q` is in the upright rectangle with the corners `p` and `r` -/
def withinSpan (p q r : Point) : Bool :=
  min p.x r.x ≤ q.x && q.x ≤ max p.x r.x && min p.z r.z ≤ q.z && q.z ≤ max p.z r.z

/-- whether two closed segments share a point -/
def segmentsCross (a₁ a₂ b₁ b₂ : Point) : Bool :=
  let o₁ := orientation a₁ a₂ b₁
  let o₂ := orientation a₁ a₂ b₂
  let o₃ := orientation b₁ b₂ a₁
  let o₄ := orientation b₁ b₂ a₂
  (o₁ != o₂ && o₃ != o₄) || (o₁ == 0 && withinSpan a₁ b₁ a₂) || (o₂ == 0 && withinSpan a₁ b₂ a₂) ||
    (o₃ == 0 && withinSpan b₁ a₁ b₂) || (o₄ == 0 && withinSpan b₁ a₂ b₂)

/-- whether an edge of one outline crosses an edge of the other -/
def outlinesCross (ps qs : List Point) : Bool :=
  (edges ps).any fun a => (edges qs).any fun b => segmentsCross a.1 a.2 b.1 b.2

end Precinct.Plane
