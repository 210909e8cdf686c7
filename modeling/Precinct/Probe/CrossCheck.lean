import Precinct.Cache.Query

/-!
# Cross-checking a cache with its store

* `CrossCheck`   how many queries were asked, how many regions the cache named, how many of its
                 answers the store disagreed with, and the first places of disagreement;
* `Finding`      what came of one query;
* `tally`        the findings counted, in the order of the queries;
* `crossCheck`   every point asked of the cache and of its store, in order, and then counted.

Room for all findings is made before the first query.  Regions are counted in 64 bits; the other counts
are no longer than the list of findings, which has room.
-/

namespace Precinct

/-- the outcome of a cross-check -/
structure CrossCheck where
  queries : Nat := 0
  matchesFound : UInt64 := 0
  mismatches : Nat := 0
  /-- the first places where cache and store disagree -/
  samples : List Block := []
  deriving DecidableEq, Repr

/-- what came of one query -/
structure Finding where
  /-- how many regions the cache named -/
  found : Nat
  /-- the place, if the store named others -/
  mismatch : Option Block
  deriving DecidableEq, Repr

namespace Finding

/-- how many bytes a finding has -/
def bytes : Nat := 24

/-- the answers of the cache and of the store for a place are compared -/
def ofAnswers (p : Block) (cached expected : List Region) : Finding where
  found := cached.length
  mismatch := if cached.map Region.id = expected.map Region.id then none else some p

end Finding

namespace CrossCheck

def passed (check : CrossCheck) : Bool := check.mismatches == 0

/-- how many places of disagreement are kept -/
def sampleLimit : Nat := 10

/-- note a place of disagreement -/
def disagreed (check : CrossCheck) (p : Block) : CrossCheck :=
  { check with
    mismatches := check.mismatches + 1
    samples := if check.samples.length < sampleLimit then check.samples ++ [p] else check.samples }

/-- note what came of a query -/
def note (check : CrossCheck) (f : Finding) : Except Fault CrossCheck := do
  let matchesFound ← addExact check.matchesFound f.found
  return f.mismatch.elim { check with matchesFound } { check with matchesFound }.disagreed

/-- note what came of all queries -/
def tally (findings : List Finding) : Except Fault CrossCheck :=
  findings.foldlM note { queries := findings.length }

end CrossCheck

namespace Cache
variable {σ : Type} [RegionStore σ]

/-- what the store itself says about a place, in layer order -/
def storeAnswer (c : Cache σ) (p : Block) : List Region × Cache σ :=
  let (regions, store) := c.store.containing p
  (Region.inLayers regions, { c with store })

/-- ask the cache and its store about one place -/
def checkAt (c : Cache σ) (p : Block) : Finding × Cache σ :=
  let (cached, c) := c.regionsAt p
  let (expected, c) := c.storeAnswer p
  (.ofAnswers p cached expected, c)

/-- ask the cache and its store about more places, after some findings that are given latest first -/
def checkAll (c : Cache σ) (before : List Finding) : List Block → List Finding × Cache σ
  | [] => (before.reverse, c)
  | p :: rest => let (f, c) := c.checkAt p; c.checkAll (f :: before) rest

/-- ask the cache and its store about places, in order -/
def crossCheck (c : Cache σ) (points : List Block) : Except Fault CrossCheck × Cache σ :=
  match room points.length Finding.bytes with
  | .error fault => (.error fault, c)
  | .ok () => let (findings, c) := c.checkAll [] points; (CrossCheck.tally findings, c)

end Cache
end Precinct
