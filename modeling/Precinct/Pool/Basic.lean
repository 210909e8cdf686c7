import Precinct.Fault
import Precinct.Settings.Basic

/-!
# A bounded pool of workers

* `Pool J`       a queue of jobs of type `J`, the workers that take them, and three counts: workers
                 `live`, workers `idle`, and workers `spawned` so far;
* `Phase`        where a worker is on its round: it waits for a job, holds one (`held` until it has
                 counted itself busy, `ready` until it has asked whether the pool was cancelled),
                 runs it, rests (until it has counted itself idle again), or leaves;
* `Pool.step?`   one move of one worker.  Every move is a single step that others can come between;
* `Pool.submit`  queue a job, and spawn a worker if none is idle, the bound allows and the system does
                 not deny it;
* `Pool.close`   accept no more jobs; what is queued is still run;
* `Pool.cancel`  accept no more jobs, tell running jobs to stop, and discard what is queued.

A worker that finds its pool cancelled while it holds a job drops the job.  A worker above the
minimum goes when it waited for long and the queue is empty; counting and going are one step, so a
`submit` either sees the worker idle or sees it gone.  Here it may go after any wait; the clock
(`Precinct.Pool.Clock`) says when it does.

Whoever begins to wait goes to the end of `workers` and notes the time, so the waiting ones stand in
the order in which they began, and a job goes to the one that waited longest.

What a running job does is up to the owner of the pool, who calls `Pool.finish` when it ends.
-/

namespace Precinct

/-- how a pool is set up -/
structure PoolSettings where
  minThreads : Nat
  maxThreads : Nat
  keepAliveMs : Nat
  threadName : String
  deriving DecidableEq, Inhabited, Repr

/-- the pool of a cache; it always has room for one worker -/
def Settings.pool (s : Settings) : PoolSettings where
  minThreads := s.minThreads.toNat
  maxThreads := max s.maxThreads.toNat 1
  keepAliveMs := s.keepAliveMs.toNat
  threadName := s.threadName

/-- where a worker is on its round -/
inductive Phase (J : Type) where
  | waiting
  | held (job : J)
  | ready (job : J)
  | running (job : J)
  | resting
  | leaving
  deriving DecidableEq, Repr

/-- a worker, numbered from 1 in the order of spawning -/
structure Worker (J : Type) where
  number : Nat
  phase : Phase J
  /-- when it last began to wait -/
  since : Nat
  deriving DecidableEq, Repr

/-- one step of a worker on its own -/
inductive Move where
  /-- take the first job of the queue -/
  | receive
  /-- count itself busy -/
  | engage
  /-- run the job, unless the pool was cancelled -/
  | start
  /-- count itself idle and wait again -/
  | rest
  /-- stop waiting: the pool was cancelled, or is closed and has no jobs -/
  | leave
  /-- count itself gone -/
  | retire
  /-- go after a long wait -/
  | expire
  deriving DecidableEq, Repr

/-- a bounded pool of workers -/
structure Pool (J : Type) where
  settings : PoolSettings
  queue : List J := []
  accepting : Bool := true
  cancelled : Bool := false
  workers : List (Worker J) := []
  live : Nat := 0
  idle : Nat := 0
  spawned : Nat := 0
  /-- the time, in milliseconds -/
  now : Nat := 0

namespace Pool
variable {J : Type}

instance : Inhabited (Pool J) := ⟨{ settings := default }⟩

/-- the name of the worker with a number -/
def workerName (p : Pool J) (number : Nat) : String :=
  p.settings.threadName ++ "-" ++ toString number

/-! ## from outside -/

/-- queue a job, and spawn a worker if none is idle and the bound allows.  A name with the character
zero can name no worker: the job stays queued and the operation breaks off.  The system may deny a
worker, and then the job stays queued as well -/
def submit (p : Pool J) (job : J) (denied : Bool := false) : Except Fault Unit × Pool J :=
  if !p.accepting then (.ok (), p)
  else
    let p := { p with queue := p.queue ++ [job] }
    if p.idle = 0 ∧ p.live < p.settings.maxThreads then
      let p := { p with spawned := p.spawned + 1 }
      if (p.workerName p.spawned).toList.contains '\x00' then (.error .workerName, p)
      else if denied then (.ok (), p)
      else
        (.ok (), { p with
          workers := p.workers ++ [⟨p.spawned, .waiting, p.now⟩]
          live := p.live + 1
          idle := p.idle + 1 })
    else (.ok (), p)

def close (p : Pool J) : Pool J := { p with accepting := false }

/-- the first half of cancelling: raise the token and accept no more jobs -/
def raise (p : Pool J) : Pool J := { p with cancelled := true, accepting := false }

/-- the second half of cancelling: discard what is queued; how much it was -/
def discard (p : Pool J) : Nat × Pool J := (p.queue.length, { p with queue := [] })

/-- stop the pool; how many jobs were discarded.  A pool that accepts no more jobs is left alone -/
def cancel (p : Pool J) : Nat × Pool J := if p.accepting then p.raise.discard else (0, p)

/-! ## from inside -/

def worker? (p : Pool J) (number : Nat) : Option (Worker J) :=
  p.workers.find? (·.number == number)

/-- put the worker with a number into a phase -/
def setPhase (p : Pool J) (number : Nat) (phase : Phase J) : Pool J :=
  { p with workers := p.workers.map fun w => if w.number = number then { w with phase } else w }

/-- the worker with a number begins to wait, behind the others -/
def beginWait (p : Pool J) (number : Nat) : Pool J :=
  { p with workers := p.workers.filter (·.number != number) ++ [⟨number, .waiting, p.now⟩] }

/-- a worker goes: it was live, and it was counted idle -/
def depart (p : Pool J) (number : Nat) : Pool J :=
  { p with
    workers := p.workers.filter (·.number != number)
    live := p.live - 1
    idle := p.idle - 1 }

/-- one move of the worker with a number, if it can be made -/
def step? (p : Pool J) (number : Nat) (move : Move) : Option (Pool J) :=
  match p.worker? number with
  | none => none
  | some w =>
    match move, w.phase with
    | .receive, .waiting =>
      match p.queue with
      | [] => none
      | job :: rest => some ({ p with queue := rest }.setPhase number (.held job))
    | .engage, .held job => some ({ p with idle := p.idle - 1 }.setPhase number (.ready job))
    | .start, .ready job =>
      some (p.setPhase number (if p.cancelled then .resting else .running job))
    | .rest, .resting => some ({ p with idle := p.idle + 1 }.beginWait number)
    | .leave, .waiting =>
      if p.cancelled || (!p.accepting && p.queue.isEmpty) then some (p.setPhase number .leaving)
      else none
    | .retire, .leaving => some (p.depart number)
    | .expire, .waiting =>
      if p.settings.minThreads < p.live && p.queue.isEmpty then some (p.depart number) else none
    | _, _ => none

/-- the job of a worker goes on as another one -/
def proceed (p : Pool J) (number : Nat) (job : J) : Pool J := p.setPhase number (.running job)

/-- the job of a worker has ended, normally or not -/
def finish (p : Pool J) (number : Nat) : Pool J := p.setPhase number .resting

/-! ## the order of moves when nobody comes between -/

/-- the move that a worker makes without waiting for time to pass -/
def nextMove (p : Pool J) (w : Worker J) : Option Move :=
  match w.phase with
  | .waiting =>
    if p.cancelled then some .leave
    else if !p.queue.isEmpty then some .receive
    else if !p.accepting then some .leave
    else none
  | .held _ => some .engage
  | .ready _ => some .start
  | .running _ => none
  | .resting => some .rest
  | .leaving => some .retire

/-- the move of the first worker that can make one -/
def advance (p : Pool J) : Option (Pool J) :=
  p.workers.findSome? fun w => (p.nextMove w).bind (p.step? w.number)

/-! ## how much is left to do -/

def total (ns : List Nat) : Nat := ns.foldr (· + ·) 0

/-- the moves that a worker still makes, a job counted by its weight -/
def workOf (weight : J → Nat) (w : Worker J) : Nat :=
  match w.phase with
  | .leaving => 1
  | .waiting => 2
  | .resting => 3
  | .running job => weight job + 4
  | .ready job => weight job + 5
  | .held job => weight job + 6

/-- the moves that a pool still makes, a job counted by its weight -/
def work (weight : J → Nat) (p : Pool J) : Nat :=
  total (p.queue.map fun job => weight job + 5) + total (p.workers.map (workOf weight))

end Pool
end Precinct
