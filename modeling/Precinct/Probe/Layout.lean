import Precinct.Probe.Generator
import Precinct.Region.Basic
import Precinct.Settings.Basic

/-!
# Layouts and queries for a probe

* `Probe.layout`       overlapping regions around the origin, every fourth a diamond, the others
                       boxes;
* `Probe.queryPoints`  blocks above and below a square of columns;
* `Probe.columnSquare` the columns of that square, row by row.

`radius` is how many columns the square reaches from the origin in every direction.  Coordinates are
computed exactly, and one that leaves the range of its type breaks off, also when nothing is laid
out.
-/

namespace Precinct.Probe

/-- why a probe fails -/
inductive Failure where
  | broken (fault : Fault)
  | region (e : RegionError)
  | settings (e : SettingsError)
  deriving DecidableEq, Repr

def coordinate (n : Int) : Except Failure Int32 :=
  if Int32.minValue.toInt ≤ n ∧ n ≤ Int32.maxValue.toInt then .ok (Int32.ofInt n)
  else .error (.broken .overflow)

def draw (g : Generator) (min max : Int32) : Except Failure (Int32 × Generator) :=
  (g.draw min max).mapError .broken

/-! ## regions -/

/-- a diamond around a vertex, between two heights -/
def diamond (name : String) (x z r y top : Int32) : Except Failure Region := do
  let north ← coordinate (z.toInt - r.toInt)
  let east ← coordinate (x.toInt + r.toInt)
  let south ← coordinate (z.toInt + r.toInt)
  let west ← coordinate (x.toInt - r.toInt)
  (Region.polygon name [⟨x, north⟩, ⟨east, z⟩, ⟨x, south⟩, ⟨west, z⟩] y top).mapError .region

/-- a box with a corner at a block, between two heights -/
def plot (name : String) (x z w d y top : Int32) : Except Failure Region := do
  let east ← coordinate (x.toInt + w.toInt)
  let south ← coordinate (z.toInt + d.toInt)
  (Region.cuboid name ⟨x, y, z⟩ ⟨east, top, south⟩).mapError .region

/-- the region with a number, placed up to `extent` blocks from the origin -/
def parcel (extent : Int32) (i : Nat) (g : Generator) : Except Failure (Region × Generator) := do
  let opposite ← coordinate (-extent.toInt)
  let (x, g) ← draw g opposite extent
  let (z, g) ← draw g opposite extent
  let (y, g) ← draw g 0 200
  let (height, g) ← draw g 8 120
  let (priority, g) ← draw g (-3) 3
  let top ← coordinate (y.toInt + height.toInt)
  if i % 4 = 3 then
    let (r, g) ← draw g 4 40
    let region ← diamond ("diamond_" ++ toString i) x z r y top
    return (region.withPriority priority, g)
  else
    let (w, g) ← draw g 0 48
    let (d, g) ← draw g 0 48
    let region ← plot ("plot_" ++ toString i) x z w d y top
    return (region.withPriority priority, g)

/-- more regions after those with numbers below `i`, which are given latest first -/
def parcels (extent : Int32) (i : Nat) (before : List Region) :
    Nat → Generator → Except Failure (List Region × Generator)
  | 0, g => .ok (before.reverse, g)
  | count + 1, g => do
    let (region, g) ← parcel extent i g
    parcels extent (i + 1) (region :: before) count g

def layout (count : Nat) (radius : Int32) (g : Generator) :
    Except Failure (List Region × Generator) := do
  let reach ← coordinate (radius.toInt + 1)
  let extent ← coordinate (reach.toInt * 16)
  (room count 8).mapError .broken
  parcels extent 0 [] count g

/-! ## queries -/

/-- more points, after some that are given latest first -/
def pointsWithin (min max : Int32) (before : List Block) :
    Nat → Generator → Except Failure (List Block × Generator)
  | 0, g => .ok (before.reverse, g)
  | count + 1, g => do
    let (x, g) ← draw g min max
    let (y, g) ← draw g (-16) 336
    let (z, g) ← draw g min max
    pointsWithin min max (⟨x, y, z⟩ :: before) count g

/-- a number of blocks in the columns of a square -/
def queryPoints (count : Nat) (radius : Int32) (g : Generator) :
    Except Failure (List Block × Generator) := do
  let opposite ← coordinate (-radius.toInt)
  let min ← coordinate (opposite.toInt * 16)
  let reach ← coordinate (radius.toInt + 1)
  let extent ← coordinate (reach.toInt * 16)
  let max ← coordinate (extent.toInt - 1)
  (room count 12).mapError .broken
  pointsWithin min max [] count g

def columnSquare (radius : Int32) : Except Failure (List Column) := do
  let opposite ← coordinate (-radius.toInt)
  let ticks := Box.ticks opposite radius
  return ticks.flatMap fun x => ticks.map fun z => ⟨x, z⟩

end Precinct.Probe
