import Precinct.Pool.Basic

/-!
# The clock of a pool

Time passes for a pool while somebody waits for it.

* `Pool.dueAt`        when the wait of a worker has been long enough;
* `Pool.nextExpiry?`  the first worker to go for having waited for long;
* `Pool.renew`        it is later, and nobody has gone: who may not go begins its wait anew;
* `Pool.elapse`       some time passes, one expiry after the other.

All waits of a pool are equally long and the waiting workers stand in the order in which they began,
so the first that may go is the first to go.  When one goes, another may have become one of the
minimum; hence the expiries are taken singly.
-/

namespace Precinct
namespace Pool
variable {J : Type}

/-- when the wait of a worker has been long enough -/
def dueAt (p : Pool J) (w : Worker J) : Nat := w.since + p.settings.keepAliveMs

/-- the first worker to go for having waited for long: when, and the pool that it leaves -/
def nextExpiry? (p : Pool J) : Option (Nat × Pool J) :=
  p.workers.findSome? fun w => (p.step? w.number .expire).map fun left => (p.dueAt w, left)

/-- when the latest of the waits began that follow each other from one moment to another -/
def latestWait (length start moment : Nat) : Nat := start + length * ((moment - start) / length)

/-- a worker that waits has done so again and again up to a moment -/
def renewWait (p : Pool J) (moment : Nat) (w : Worker J) : Worker J :=
  match w.phase with
  | .waiting => { w with since := latestWait p.settings.keepAliveMs w.since moment }
  | _ => w

/-- it is later, and no worker has gone: each waits anew as often as its wait came to an end -/
def renew (p : Pool J) (moment : Nat) : Pool J :=
  { p with
    now := moment
    workers := (p.workers.map (p.renewWait moment)).mergeSort fun v w => v.since ≤ w.since }

/-- let time pass up to a moment, or until the pool meets a condition, one expiry at a time -/
def passTo (moment : Nat) (stop : Pool J → Bool) : Nat → Pool J → Pool J
  | 0, p => p
  | n + 1, p =>
    if stop p then p
    else
      match p.nextExpiry? with
      | some (time, left) =>
        if time ≤ moment then passTo moment stop n { left with now := max p.now time }
        else p.renew moment
      | none => p.renew moment

/-- let some time pass, or less if the pool meets a condition before -/
def elapseUntil (p : Pool J) (ms : Nat) (stop : Pool J → Bool) : Pool J :=
  passTo (p.now + ms) stop (p.workers.length + 1) p

def elapse (p : Pool J) (ms : Nat) : Pool J := p.elapseUntil ms fun _ => false

end Pool
end Precinct
