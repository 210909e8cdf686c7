import Precinct.Fault
import Precinct.Store.Basic

/-!
# A store under observation

* `Watched σ`          a store, how many spatial queries reached it, and what is arranged for the
                       next query for intersecting regions: a gate that holds its caller, or a
                       failure;
* `Caller`             who asks: whoever has the store at hand, or a worker of a pool, known by the
                       numbers of both;
* `Gate`               what the first caller to reach it waits for;
* `Watched.enter`      a query for intersecting regions begins: it is counted, and its caller
                       reaches the gate;
* `Watched.collect`    such a query is answered, or fails if that was arranged.

A gate is for one caller: all who come later pass it by.  It may be opened before anybody reaches
it, and a new gate takes the place of the one before, whose caller goes on.
-/

namespace Precinct

/-- who asks a store -/
inductive Caller where
  | owner
  | worker (pool number : Nat)
  deriving DecidableEq, Repr

/-- what holds up the next query for intersecting regions -/
structure Gate where
  opened : Bool := false
  /-- who reached the gate -/
  caller : Option Caller := none
  deriving DecidableEq, Repr

namespace Gate

/-- a caller comes to the gate; only the first one reaches it -/
def reach (g : Gate) (caller : Caller) : Gate :=
  { g with caller := g.caller.or (some caller) }

def holds (g : Gate) (caller : Caller) : Bool := !g.opened && g.caller == some caller

end Gate

/-- a store under observation -/
structure Watched (σ : Type) where
  store : σ
  /-- queries for the regions that hold a block -/
  containingCalls : Nat := 0
  /-- queries for the regions that may share a block with a region -/
  intersectingCalls : Nat := 0
  /-- the latest gate -/
  gate : Option Gate := none
  /-- whether the next query for intersecting regions fails -/
  failing : Bool := false

namespace Watched
variable {σ : Type}

/-- hold the caller of the next query for intersecting regions -/
def closeGate (w : Watched σ) : Watched σ := { w with gate := some {} }

/-- whether a caller has reached the latest gate, held or not -/
def isGateReached (w : Watched σ) : Bool := w.gate.any (·.caller.isSome)

/-- open the latest gate; whether there was one that was not open -/
def openGate (w : Watched σ) : Bool × Watched σ :=
  (w.gate.any (!·.opened), { w with gate := w.gate.map ({ · with opened := true }) })

/-- let the next query for intersecting regions fail -/
def failNext (w : Watched σ) : Watched σ := { w with failing := true }

def holds (w : Watched σ) (caller : Caller) : Bool := w.gate.any (·.holds caller)

def enter (w : Watched σ) (caller : Caller) : Watched σ :=
  { w with
    intersectingCalls := w.intersectingCalls + 1
    gate := w.gate.map (·.reach caller) }

variable [RegionStore σ]

/-- a query for intersecting regions that has begun is answered -/
def collect (w : Watched σ) (r : Region) : Except Fault (List Region) × Watched σ :=
  if w.failing then (.error .store, { w with failing := false })
  else
    let (regions, store) := RegionStore.intersecting w.store r
    (.ok regions, { w with store })

/-- a query for intersecting regions by the owner, begun and answered in one go -/
def intersecting (w : Watched σ) (r : Region) : Except Fault (List Region) × Watched σ :=
  (w.enter .owner).collect r

/-- a query for the regions that hold a block -/
def containing (w : Watched σ) (p : Block) : List Region × Watched σ :=
  let (regions, store) := RegionStore.containing w.store p
  (regions, { w with store, containingCalls := w.containingCalls + 1 })

def modify (w : Watched σ) (f : σ → σ) : Watched σ := { w with store := f w.store }

end Watched
end Precinct
