/-!
# Faults

* `Fault`  why an operation breaks off.  What it had done up to then stays done.
* `room`   whether a list of some length can be had at all.
-/

namespace Precinct

/-- why an operation breaks off -/
inductive Fault where
  /-- an integer left the range of its type -/
  | overflow
  /-- a remainder by zero -/
  | emptySpan
  /-- a list longer than any memory -/
  | capacity
  /-- a worker whose name holds the character zero -/
  | workerName
  /-- the store gave up a query -/
  | store
  deriving DecidableEq, Repr

/-- the most bytes that a list may have -/
def maxBytes : Nat := Int64.maxValue.toInt.toNat

/-- room for a number of items of a size in bytes -/
def room (count size : Nat) : Except Fault Unit :=
  if count * size ≤ maxBytes then .ok () else .error .capacity

end Precinct
