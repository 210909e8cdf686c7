import Precinct.Fault

/-!
# A deterministic generator

* `Generator`       a 64-bit linear congruential generator: the same seed, the same numbers;
* `Generator.next`  the upper 31 bits of the next state;
* `Generator.draw`  a number between two bounds, both included, as the remainder by how many there
                    are.

The count of numbers is taken modulo `2 ^ 64`.  Bounds in the wrong order thus give a huge count,
and `next` itself is added to the lower bound; only when the upper bound is just below the lower one
is the count zero.
-/

namespace Precinct.Probe

/-- a linear congruential generator -/
structure Generator where
  state : UInt64
  deriving DecidableEq, Inhabited, Repr

namespace Generator

/-- what the state is multiplied by -/
def multiplier : UInt64 := 6364136223846793005

/-- what is added to the state -/
def increment : UInt64 := 1442695040888963407

def advance (g : Generator) : Generator := ⟨g.state * multiplier + increment⟩

def output (g : Generator) : UInt64 := g.state >>> 33

/-- the next number, below `2 ^ 31` -/
def next (g : Generator) : UInt64 × Generator := (g.advance.output, g.advance)

/-- how many numbers there are between two bounds, modulo `2 ^ 64` -/
def span (min max : Int32) : UInt64 := UInt64.ofInt (max.toInt - min.toInt + 1)

def draw (g : Generator) (min max : Int32) : Except Fault (Int32 × Generator) :=
  let (n, g) := g.next
  if span min max = 0 then .error .emptySpan
  else .ok (Int32.ofInt (min.toInt + (n % span min max).toNat), g)

/-- numbers between several bounds, one after the other -/
def drawAll (g : Generator) : List (Int32 × Int32) → Except Fault (List Int32 × Generator)
  | [] => .ok ([], g)
  | (min, max) :: rest => do
    let (n, g) ← g.draw min max
    let (ns, g) ← g.drawAll rest
    return (n :: ns, g)

end Generator
end Precinct.Probe
