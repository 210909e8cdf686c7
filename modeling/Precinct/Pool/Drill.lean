import Precinct.Pool.Clock

/-!
# Drills: a pool with scripted jobs

* `Script`        what a job of a drill does: it ends at once, holds until it is released, runs
                  until the pool is cancelled, or breaks off;
* `Task`          a job of a drill and what is known of it;
* `Drill`         a pool whose jobs are tasks, by their place in the order of submission;
* `Drill.settle`  lets the workers go on until each of them waits for something;
* `Drill.waitTask`, `Drill.waitLive`  wait for something, some milliseconds at most.

The workers proceed only while somebody waits: a command that follows another one at once finds
them where they were, and so does a look at the drill.  What is so already is not waited for.  Work
takes no time, only waiting does.

A task whose id is used again cannot be reached any more; it goes on as it was.  A drill stays
observable after its pool was given up: what still runs is noted in the tasks.
-/

namespace Precinct

/-- what a job of a drill does -/
inductive Script where
  | quick
  | hold
  | untilCancel
  | breakOff
  deriving DecidableEq, Repr

/-- what a job that ended normally tells -/
structure Task.Report where
  worker : String
  cancelledAtStart : Bool
  cancelledAtEnd : Bool
  deriving DecidableEq, Repr

/-- a job of a drill and what is known of it -/
structure Task where
  id : Int
  script : Script
  released : Bool := false
  started : Bool := false
  done : Bool := false
  report : Option Task.Report := none
  deriving DecidableEq, Repr

/-- a pool whose jobs are tasks -/
structure Drill where
  pool : Pool Nat
  tasks : Array Task := #[]
  /-- whether the pool was given up -/
  gone : Bool := false

namespace Drill

def ofSettings (settings : PoolSettings) : Drill := { pool := { settings } }

/-! ## the course of a drill -/

def ends (d : Drill) (t : Task) : Bool :=
  match t.script with
  | .quick => true
  | .hold => t.released
  | .untilCancel => d.pool.cancelled
  | .breakOff => true

/-- what is known of a task once it has ended on a worker -/
def ended (d : Drill) (number : Nat) (t : Task) : Task :=
  match t.script with
  | .breakOff => { t with done := true }
  | _ =>
    { t with
      done := true
      report := some ⟨d.pool.workerName number, false, d.pool.cancelled⟩ }

/-- the task of a worker has ended -/
def relieve (d : Drill) (number : Nat) : Drill := { d with pool := d.pool.finish number }

/-- a running task is noted as started, and ends when it can -/
def serve (d : Drill) (w : Worker Nat) : Option Drill :=
  match w.phase with
  | .running i =>
    match d.tasks[i]? with
    | none => some (d.relieve w.number)
    | some t =>
      if !t.started then some { d with tasks := d.tasks.modify i ({ · with started := true }) }
      else if d.ends t then
        some ({ d with tasks := d.tasks.modify i (d.ended w.number) }.relieve w.number)
      else none
  | _ => none

/-- one step of the drill, a job counted as two steps -/
def advance (d : Drill) : Option Drill :=
  match d.pool.advance with
  | some pool => some { d with pool }
  | none => d.pool.workers.findSome? d.serve

/-- a number of steps, as far as there are any -/
def run : Nat → Drill → Drill
  | 0, d => d
  | n + 1, d =>
    match d.advance with
    | some d' => run n d'
    | none => d

/-- let the workers go on until each of them waits for something -/
def settle (d : Drill) : Drill := run (d.pool.work fun _ => 2) d

/-! ## commands -/

/-- the latest task with an id, and its place -/
def latest? (d : Drill) (id : Int) : Option (Task × Nat) :=
  d.tasks.toList.zipIdx.reverse.find? (·.1.id == id)

def submit (d : Drill) (id : Int) (script : Script) : Except Fault Unit × Drill :=
  let (outcome, pool) := d.pool.submit d.tasks.size
  (outcome, { d with pool, tasks := d.tasks.push { id, script } })

/-- let the latest task with an id go on, if it holds -/
def release (d : Drill) (id : Int) : Drill :=
  match d.latest? id with
  | some (_, i) => { d with tasks := d.tasks.modify i ({ · with released := true }) }
  | none => d

/-- discard what is queued and tell running tasks to stop -/
def cancel (d : Drill) : Nat × Drill :=
  let (n, pool) := d.pool.cancel
  (n, { d with pool })

def shutdownNow (d : Drill) : Nat × Drill :=
  let (n, d) := d.cancel
  (n, { d with gone := true })

/-! ## waits -/

/-- the workers go on, unless there is no time for that -/
def pause (d : Drill) (ms : Nat) : Drill := if ms = 0 then d else d.settle

def elapse (d : Drill) (ms : Nat) : Drill := { d with pool := d.pool.elapse ms }

/-- wait until something is so of the latest task with an id.  No time passes if there is none, and
time alone brings no task further -/
def waitTask (d : Drill) (id : Int) (ms : Nat) (holds : Task → Bool) : Bool × Drill :=
  match d.latest? id with
  | none => (false, d)
  | some (t, i) =>
    if holds t then (true, d)
    else
      let d := d.pause ms
      if d.tasks[i]?.any holds then (true, d.elapse 0) else (false, d.elapse ms)

/-- wait until the latest task with an id has started -/
def waitStarted (d : Drill) (id : Int) (ms : Nat) : Bool × Drill := d.waitTask id ms (·.started)

/-- wait until the latest task with an id is done -/
def waitDone (d : Drill) (id : Int) (ms : Nat) : Bool × Drill := d.waitTask id ms (·.done)

def waitLive (d : Drill) (live ms : Nat) : Bool × Drill :=
  if d.pool.live = live then (true, d)
  else
    let d := d.pause ms
    let pool := d.pool.elapseUntil ms (·.live == live)
    (pool.live == live, { d with pool })

def wait (d : Drill) (ms : Nat) : Bool × Drill := d.waitLive 0 ms

/-- give the pool up after its tasks, as far as they end in time; whether all workers went -/
def shutdown (d : Drill) (ms : Nat) : Bool × Drill :=
  let d := { d with pool := d.pool.close, gone := true }
  let d := if d.pool.live = 0 then d else d.pause ms
  (d.pool.live == 0, d)

/-! ## a look -/

/-- the latest task of every id, by id -/
def log (d : Drill) : List Task :=
  (d.tasks.toList.reverse.eraseDupsBy fun a b => a.id == b.id).mergeSort fun a b => a.id ≤ b.id

end Drill
end Precinct
