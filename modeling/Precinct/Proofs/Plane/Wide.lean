import Mathlib
import Precinct.Plane.Segment

/-!
# Areas in 128 bits

Differences of coordinates have 33 bits, so their products, and the difference of two of these, are
far from leaving 128.

* `wide`               a number that must fit in 128 bits;
* `wideCross`          the area of a triangle worked out in 128 bits, giving up where a value does not
                       fit: `wideCross_eq` says that it never does;
* `wideOrientation`    the side of a line, likewise (`wideOrientation_eq`).
-/

namespace Precinct.Plane

/-- a number that must fit in 128 bits -/
def wide (n : Int) : Option Int := if -2 ^ 127 ≤ n ∧ n < 2 ^ 127 then some n else none

/-- the area of a triangle, where every value on the way must fit -/
def wideCross (a b p : Point) : Option Int := do
  let rise ← wide (p.z.toInt - a.z.toInt)
  let width ← wide (b.x.toInt - a.x.toInt)
  let left ← wide (rise * width)
  let height ← wide (b.z.toInt - a.z.toInt)
  let reach ← wide (p.x.toInt - a.x.toInt)
  let right ← wide (height * reach)
  wide (left - right)

/-- the side of a line that a point lies on, where every value on the way must fit -/
def wideOrientation (p q r : Point) : Option Int := do
  let width ← wide (q.x.toInt - p.x.toInt)
  let rise ← wide (r.z.toInt - p.z.toInt)
  let left ← wide (width * rise)
  let height ← wide (q.z.toInt - p.z.toInt)
  let reach ← wide (r.x.toInt - p.x.toInt)
  let right ← wide (height * reach)
  let area ← wide (left - right)
  return area.sign

/-! ## bounds -/

theorem wide_eq_some {n : Int} (h : |n| ≤ 2 ^ 65) : wide n = some n := by
  obtain ⟨h₁, h₂⟩ := abs_le.mp h
  exact if_pos ⟨by omega, by omega⟩

theorem abs_sub_coordinates (m n : Int32) : |m.toInt - n.toInt| ≤ 2 ^ 32 := by
  have := Int32.le_toInt m
  have := Int32.toInt_lt m
  have := Int32.le_toInt n
  have := Int32.toInt_lt n
  rw [abs_le]
  constructor <;> omega

theorem abs_mul_le {m n : Int} (hm : |m| ≤ 2 ^ 32) (hn : |n| ≤ 2 ^ 32) : |m * n| ≤ 2 ^ 64 := by
  rw [abs_mul]
  calc |m| * |n| ≤ 2 ^ 32 * 2 ^ 32 := mul_le_mul hm hn (abs_nonneg n) (by norm_num)
    _ = 2 ^ 64 := by norm_num

theorem abs_area_le {a b c d : Int} (ha : |a| ≤ 2 ^ 32) (hb : |b| ≤ 2 ^ 32) (hc : |c| ≤ 2 ^ 32)
    (hd : |d| ≤ 2 ^ 32) : |a * b - c * d| ≤ 2 ^ 65 :=
  calc |a * b - c * d| ≤ |a * b| + |c * d| := abs_sub _ _
    _ ≤ 2 ^ 64 + 2 ^ 64 := add_le_add (abs_mul_le ha hb) (abs_mul_le hc hd)
    _ = 2 ^ 65 := by norm_num

theorem wide_difference (m n : Int32) : wide (m.toInt - n.toInt) = some (m.toInt - n.toInt) :=
  wide_eq_some ((abs_sub_coordinates m n).trans (by norm_num))

theorem wide_product (k l m n : Int32) : wide ((k.toInt - l.toInt) * (m.toInt - n.toInt)) =
    some ((k.toInt - l.toInt) * (m.toInt - n.toInt)) :=
  wide_eq_some ((abs_mul_le (abs_sub_coordinates k l) (abs_sub_coordinates m n)).trans
    (by norm_num))

theorem wide_area {a b c d : Int} (ha : |a| ≤ 2 ^ 32) (hb : |b| ≤ 2 ^ 32) (hc : |c| ≤ 2 ^ 32)
    (hd : |d| ≤ 2 ^ 32) : wide (a * b - c * d) = some (a * b - c * d) :=
  wide_eq_some (abs_area_le ha hb hc hd)

theorem wideCross_eq (a b p : Point) :
    wideCross a b p = some (cross a b p.x.toInt p.z.toInt) := by
  simp only [wideCross, wide_difference, wide_product, Option.bind_eq_bind, Option.bind_some]
  exact wide_area (abs_sub_coordinates _ _) (abs_sub_coordinates _ _) (abs_sub_coordinates _ _)
    (abs_sub_coordinates _ _)

theorem wideOrientation_eq (p q r : Point) :
    wideOrientation p q r = some (orientation p q r) := by
  have harea := wide_area (abs_sub_coordinates q.x p.x) (abs_sub_coordinates r.z p.z)
    (abs_sub_coordinates q.z p.z) (abs_sub_coordinates r.x p.x)
  simp only [wideOrientation, wide_difference, wide_product, harea, Option.bind_eq_bind,
    Option.bind_some]
  rfl

end Precinct.Plane
