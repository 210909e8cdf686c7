import Mathlib
import Precinct.Proofs.Pool.Crew

/-!
# Every job of a pool is run once

A pool with any number of workers, and whoever has it, taking their steps in any order.

* `Pool.Roster`      a pool whose jobs are numbered as they are submitted, with the jobs that were
                     begun, ended and discarded so far;
* `Roster.Step`      one step of a worker, or of whoever has the pool.  Submitting is one step, for the
                     counts are locked from the queueing of the job to the start of its worker.  A
                     cancel is many: it raises the token, then takes the queue apart job by job, while
                     the workers go on;
* `Roster.Drained`   the wait of a shutdown says that all workers went;
* `Roster.Kept`      the invariant: every job is discarded, not begun yet, or begun, and only one of
                     these; what is begun is ended or runs;
* **`Roster.protocol`** what holds in every state that a pool comes to.

In the middle of a cancel a pool is cancelled and jobs are queued, so it is not `Sound`.  It is again
once the queue is empty, and nothing that happens before depends on what is queued
(`Sound.step_emptied`).
-/

namespace Precinct

namespace Worker
variable {J : Type}

/-- the job that a worker has, and has not begun -/
def unbegun? (w : Worker J) : Option J :=
  match w.phase with
  | .held job | .ready job => some job
  | .waiting | .running _ | .resting | .leaving => none

/-- the job that a worker runs -/
def running? (w : Worker J) : Option J :=
  match w.phase with
  | .running job => some job
  | .waiting | .held _ | .ready _ | .resting | .leaving => none

end Worker

namespace Pool
variable {J : Type} {p p' : Pool J} {w w' : Worker J} {rest : List (Worker J)} {n : Nat} {m : Move}

/-! ## jobs not begun and jobs that run -/

/-- the jobs that nobody has begun -/
def unbegun (p : Pool J) : List J := p.queue ++ p.workers.filterMap Worker.unbegun?

/-- the jobs that run -/
def running (p : Pool J) : List J := p.workers.filterMap Worker.running?

theorem filterMap_crew {workers : List (Worker J)} (f : Worker J → Option J)
    (h : workers.Perm (w :: rest)) :
    (workers.filterMap f).Perm ((f w).toList ++ rest.filterMap f) := by
  refine (h.filterMap f).trans (List.Perm.of_eq ?_)
  rw [List.filterMap_cons]
  cases f w <;> rfl

/-- a worker that keeps the job it has, if any, changes neither list -/
theorem filterMap_replace {workers : List (Worker J)} {f : Worker J → Option J}
    (hw : p.workers.Perm (w :: rest)) (hw' : workers.Perm (w' :: rest)) (hf : f w' = f w) :
    (workers.filterMap f).Perm (p.workers.filterMap f) := by
  refine (filterMap_crew f hw').trans ?_
  rw [hf]
  exact (filterMap_crew f hw).symm

/-- a worker without a job may go -/
theorem filterMap_removal {workers : List (Worker J)} {f : Worker J → Option J}
    (hw : p.workers.Perm (w :: rest)) (hw' : workers.Perm rest) (hf : f w = none) :
    (workers.filterMap f).Perm (p.workers.filterMap f) := by
  have h := filterMap_crew f hw
  rw [hf] at h
  exact (hw'.filterMap f).trans h.symm

/-- **No move begins a job but the start.** -/
theorem Moved.keeps (hw : p.workers.Perm (w :: rest)) (hm : Moved p w rest m p')
    (hstart : m ≠ .start) : p'.unbegun.Perm p.unbegun ∧ p'.running.Perm p.running := by
  obtain ⟨number, phase, since⟩ := w
  cases hm with
  | @receive job queue workers phase first crew =>
    cases phase
    constructor
    · have hbefore := filterMap_crew Worker.unbegun? hw
      have hafter := (filterMap_crew Worker.unbegun? crew).append_left queue
      rw [unbegun, unbegun, first]
      -- the job goes from the head of the queue to the worker
      exact (hafter.trans List.perm_middle).trans ((hbefore.symm.append_left queue).cons job)
    · exact filterMap_replace hw crew rfl
  | engage phase crew =>
    cases phase
    exact ⟨(filterMap_replace hw crew rfl).append_left p.queue, filterMap_replace hw crew rfl⟩
  | run phase goes crew => exact absurd rfl hstart
  | skip phase stopped crew => exact absurd rfl hstart
  | rest phase crew =>
    cases phase
    exact ⟨(filterMap_replace hw crew rfl).append_left p.queue, filterMap_replace hw crew rfl⟩
  | leave phase finished crew =>
    cases phase
    exact ⟨(filterMap_replace hw crew rfl).append_left p.queue, filterMap_replace hw crew rfl⟩
  | retire phase crew =>
    cases phase
    exact ⟨(filterMap_removal hw crew rfl).append_left p.queue, filterMap_removal hw crew rfl⟩
  | expire phase above empty crew =>
    cases phase
    exact ⟨(filterMap_removal hw crew rfl).append_left p.queue, filterMap_removal hw crew rfl⟩

/-- the start begins the job of its worker, or drops it if the pool was cancelled -/
theorem start_unbegun {job : J} (hp : (p.workers.map Worker.number).Nodup)
    (hworker : p.worker? n = some w) (hphase : w.phase = .ready job)
    (hs : p.step? n .start = some p') :
    p.unbegun.Perm (job :: p'.unbegun) ∧
      (p.cancelled = false → p'.running.Perm (job :: p.running)) ∧
      (p.cancelled = true → p'.running.Perm p.running) := by
  have hw := workers_perm hp hworker
  have hset := setPhase_perm hp hworker (if p.cancelled then .resting else .running job)
  unfold step? at hs
  rw [hworker] at hs
  simp only [hphase, Option.some.injEq] at hs
  subst hs
  obtain ⟨number, phase, since⟩ := w
  cases hphase
  have hunbegun := filterMap_crew Worker.unbegun? hw
  have hrunning := filterMap_crew Worker.running? hw
  refine ⟨?_, fun hc => ?_, fun hc => ?_⟩
  · have hafter := filterMap_crew Worker.unbegun? hset
    have hnone : Worker.unbegun?
        ⟨number, if p.cancelled then .resting else .running job, since⟩ = none := by
      split <;> rfl
    rw [hnone] at hafter
    refine (hunbegun.append_left p.queue).trans (List.perm_middle.trans ?_)
    exact (hafter.symm.append_left p.queue).cons job
  · rw [if_neg (by rw [hc]; decide)] at hset ⊢
    exact (filterMap_crew Worker.running? hset).trans (hrunning.symm.cons job)
  · rw [if_pos hc] at hset ⊢
    exact (filterMap_crew Worker.running? hset).trans hrunning.symm

/-- the end of a job takes it off those that run -/
theorem finish_running {job : J} (hp : (p.workers.map Worker.number).Nodup)
    (hworker : p.worker? n = some w) (hphase : w.phase = .running job) :
    (p.finish n).unbegun.Perm p.unbegun ∧ p.running.Perm (job :: (p.finish n).running) := by
  have hw := workers_perm hp hworker
  have hset := setPhase_perm hp hworker .resting
  obtain ⟨number, phase, since⟩ := w
  cases hphase
  constructor
  · exact (filterMap_replace hw hset rfl).append_left p.queue
  · exact (filterMap_crew Worker.running? hw).trans
      ((filterMap_crew Worker.running? hset).symm.cons job)

/-- an accepting pool has one more job to begin once one was submitted -/
theorem Submitted.unbegun {job : J} {denied : Bool} {outcome : Except Fault Unit}
    (hs : Submitted p job denied outcome p') (ha : p.accepting = true) :
    p'.unbegun.Perm (job :: p.unbegun) ∧ p'.running = p.running := by
  have hqueue : ∀ hand : List J, ((p.queue ++ [job]) ++ hand).Perm (job :: (p.queue ++ hand)) := by
    intro hand
    rw [List.append_assoc]
    exact List.perm_middle
  cases hs with
  | refused closed =>
    rw [ha] at closed
    cases closed
  | queued accepts busy => exact ⟨hqueue _, rfl⟩
  | broken accepts | unmanned accepts denies => exact ⟨hqueue _, rfl⟩
  | spawned accepts =>
    unfold Pool.unbegun running
    simp only [List.filterMap_append]
    exact ⟨(hqueue _).trans (List.Perm.of_eq (by simp [Worker.unbegun?])), by simp [Worker.running?]⟩

/-! ## in the middle of a cancel -/

/-- a pool as it is once nothing is queued any more, if it was cancelled -/
def emptied (p : Pool J) : Pool J := if p.cancelled then { p with queue := [] } else p

theorem emptied_of_cancelled (h : p.cancelled = true) : p.emptied = { p with queue := [] } :=
  if_pos h

theorem emptied_of_not_cancelled (h : p.cancelled = false) : p.emptied = p := by
  rw [emptied, h]
  rfl

@[simp] theorem emptied_workers (p : Pool J) : p.emptied.workers = p.workers := by
  unfold emptied
  split <;> rfl

@[simp] theorem emptied_live (p : Pool J) : p.emptied.live = p.live := by
  unfold emptied
  split <;> rfl

@[simp] theorem emptied_idle (p : Pool J) : p.emptied.idle = p.idle := by
  unfold emptied
  split <;> rfl

@[simp] theorem emptied_accepting (p : Pool J) : p.emptied.accepting = p.accepting := by
  unfold emptied
  split <;> rfl

@[simp] theorem emptied_cancelled (p : Pool J) : p.emptied.cancelled = p.cancelled := by
  unfold emptied
  split <;> rfl

/-- **What is queued in a cancelled pool does not matter for its crew.** -/
theorem Sound.step_emptied (h : p.emptied.Sound) (hs : p.step? n m = some p') :
    p'.emptied.Sound := by
  have hnodup := h.nodup
  rw [emptied_workers] at hnodup
  obtain ⟨w, -, hw, hm⟩ := moved_of_step? hnodup hs
  obtain ⟨-, -, hcancelled⟩ := hm.frame
  by_cases hc : p.cancelled = true
  · rw [emptied_of_cancelled (hcancelled.trans hc)]
    rw [emptied_of_cancelled hc] at h
    generalize p.others n = rest at hw hm
    cases hm with
    | @receive job queue workers phase first crew =>
      refine h.replace hw crew rfl rfl rfl (by rw [phase]; rfl) h.stopped ?_
      intro v hv hleave
      rcases List.mem_cons.mp hv with rfl | hv
      · cases hleave
      · exact h.leaving v (hw.symm.subset (List.mem_cons_of_mem w hv)) hleave
    | engage phase crew => exact h.moved hw (.engage phase crew)
    | run phase goes crew => exact h.moved hw (.run phase goes crew)
    | skip phase stopped crew => exact h.moved hw (.skip phase stopped crew)
    | rest phase crew => exact h.moved hw (.rest phase crew)
    | leave phase finished crew => exact h.moved hw (.leave phase (Or.inl hc) crew)
    | retire phase crew => exact h.moved hw (.retire phase crew)
    | expire phase above empty crew => exact h.moved hw (.expire phase above rfl crew)
  · rw [Bool.not_eq_true] at hc
    rw [emptied_of_not_cancelled (hcancelled.trans hc)]
    rw [emptied_of_not_cancelled hc] at h
    exact h.step? hs

theorem emptied_finish (p : Pool J) (n : Nat) : (p.finish n).emptied = p.emptied.finish n := by
  unfold emptied
  split
  · rename_i h
    rw [if_pos (show p.cancelled = true from h)]
    rfl
  · rename_i h
    rw [if_neg (show ¬p.cancelled = true from h)]

theorem emptied_close (p : Pool J) : p.close.emptied = p.emptied.close := by
  unfold emptied
  split
  · rename_i h
    rw [if_pos (show p.cancelled = true from h)]
    rfl
  · rename_i h
    rw [if_neg (show ¬p.cancelled = true from h)]

/-! ## the number of workers -/

theorem submit_live_le (job : J) (h : p.live ≤ p.settings.maxThreads) :
    (p.submit job).2.live ≤ p.settings.maxThreads := by
  unfold submit
  split
  · exact h
  · dsimp only
    split
    · rename_i hroom
      split
      · exact h
      · exact hroom.2
    · exact h

theorem Moved.live_le (hm : Moved p w rest m p') : p'.live ≤ p.live := by
  cases hm <;> simp

/-- the counts that a move takes one off are not zero, and a worker that waited for long leaves the
minimum behind -/
structure Counted (p : Pool J) : Prop where
  engage : ∀ n p', p.step? n .engage = some p' → 0 < p.idle
  retire : ∀ n p', p.step? n .retire = some p' → 0 < p.idle ∧ 0 < p.live
  expire : ∀ n p', p.step? n .expire = some p' →
    (0 < p.idle ∧ 0 < p.live) ∧ p.settings.minThreads ≤ p'.live

theorem counted_of_sound (h : p.emptied.Sound) : p.Counted := by
  have hnodup := h.nodup
  have hlive := h.live
  have hidle := h.idle
  simp only [emptied_workers, emptied_live, emptied_idle] at hnodup hlive hidle
  -- a worker that is counted idle is one of those counted
  have hpos : ∀ {w : Worker J} {rest : List (Worker J)}, p.workers.Perm (w :: rest) →
      w.phase.isIdle = true → 0 < p.idle ∧ 0 < p.live := by
    intro w rest hw hphase
    rw [hidle, hlive, idlers_perm hw, idlers_cons, hphase, hw.length_eq]
    exact ⟨Nat.succ_pos _, Nat.succ_pos _⟩
  refine ⟨?_, ?_, ?_⟩
  · intro n p' hs
    obtain ⟨w, -, hw, hm⟩ := moved_of_step? hnodup hs
    cases hm with
    | engage phase crew => exact (hpos hw (by rw [phase]; rfl)).1
  · intro n p' hs
    obtain ⟨w, -, hw, hm⟩ := moved_of_step? hnodup hs
    cases hm with
    | retire phase crew => exact hpos hw (by rw [phase]; rfl)
  · intro n p' hs
    obtain ⟨w, -, hw, hm⟩ := moved_of_step? hnodup hs
    cases hm with
    | expire phase above empty crew =>
      exact ⟨hpos hw (by rw [phase]; rfl), Nat.le_sub_one_of_lt above⟩

theorem idle_le_live (h : p.emptied.Sound) : p.idle ≤ p.live := by
  have hlive := h.live
  have hidle := h.idle
  simp only [emptied_workers, emptied_live, emptied_idle] at hlive hidle
  rw [hlive, hidle]
  exact List.countP_le_length

/-! ## the roster -/

/-- how far whoever has a pool is with it -/
inductive Hold where
  /-- free to submit, to cancel and to shut down -/
  | free
  /-- in the middle of a cancel -/
  | cancelling
  /-- gave the pool up, and waits for the workers to go -/
  | shut
  deriving DecidableEq, Repr

/-- a pool with numbered jobs, and what became of them so far -/
structure Roster where
  pool : Pool Nat
  hold : Hold := .free
  /-- how many jobs were submitted -/
  issued : Nat := 0
  begun : List Nat := []
  ended : List Nat := []
  /-- the jobs that a cancel took: from the queue, from a worker that had not begun, or at the door -/
  discarded : List Nat := []

namespace Roster

/-- a new pool -/
def ofSettings (settings : PoolSettings) : Roster := { pool := { settings } }

/-- a pool whose cancel has begun: the token is raised and no more jobs are accepted -/
def raised (s : Roster) : Roster := { s with pool := s.pool.raise, hold := .cancelling }

/-- one step of a worker, or of whoever has the pool -/
inductive Step (s : Roster) : Roster → Prop
  /-- submit a job; a pool that was cancelled takes none -/
  | submit (free : s.hold = .free) :
      Step s { s with
        pool := (s.pool.submit s.issued).2
        issued := s.issued + 1
        discarded := if s.pool.accepting then s.discarded else s.issued :: s.discarded }
  /-- a move of a worker, other than the start of its job -/
  | move {n : Nat} {m : Move} {p : Pool Nat} (makes : s.pool.step? n m = some p)
      (other : m ≠ .start) : Step s { s with pool := p }
  /-- a worker begins to run its job -/
  | begin {n job : Nat} {w : Worker Nat} {p : Pool Nat} (worker : s.pool.worker? n = some w)
      (phase : w.phase = .ready job) (goes : s.pool.cancelled = false)
      (makes : s.pool.step? n .start = some p) :
      Step s { s with pool := p, begun := job :: s.begun }
  /-- a worker finds the pool cancelled and drops its job -/
  | skip {n job : Nat} {w : Worker Nat} {p : Pool Nat} (worker : s.pool.worker? n = some w)
      (phase : w.phase = .ready job) (stopped : s.pool.cancelled = true)
      (makes : s.pool.step? n .start = some p) :
      Step s { s with pool := p, discarded := job :: s.discarded }
  /-- a job ends, normally or by a panic, which its worker catches -/
  | finish {n job : Nat} {w : Worker Nat} (worker : s.pool.worker? n = some w)
      (phase : w.phase = .running job) :
      Step s { s with pool := s.pool.finish n, ended := job :: s.ended }
  /-- begin to cancel -/
  | raise (free : s.hold = .free) (accepts : s.pool.accepting = true) : Step s s.raised
  /-- go on cancelling: take a job from the queue -/
  | discard {job : Nat} {queue : List Nat} (cancels : s.hold = .cancelling)
      (first : s.pool.queue = job :: queue) :
      Step s { s with pool := { s.pool with queue }, discarded := job :: s.discarded }
  /-- end the cancel: nothing is queued -/
  | clear (cancels : s.hold = .cancelling) (empty : s.pool.queue = []) :
      Step s { s with hold := .free }
  /-- shut down: accept no more jobs, and wait -/
  | shut (free : s.hold = .free) : Step s { s with pool := s.pool.close, hold := .shut }

/-- what a pool can come to -/
def Comes (s s' : Roster) : Prop := Relation.ReflTransGen Step s s'

/-- the wait of a shutdown tells that every worker went -/
def Drained (s : Roster) : Prop := s.hold = .shut ∧ s.pool.live = 0

/-- what holds of a roster in every state -/
structure Kept (settings : PoolSettings) (s : Roster) : Prop where
  settings : s.pool.settings = settings
  crew : s.pool.emptied.Sound
  bound : s.pool.live ≤ s.pool.settings.maxThreads
  staffed : s.pool.cancelled = false → s.pool.Staffed
  cleared : s.hold ≠ .cancelling → s.pool.cancelled = true → s.pool.queue = []
  cancels : s.hold = .cancelling → s.pool.cancelled = true
  accepts : s.hold = .free → s.pool.cancelled = false → s.pool.accepting = true
  uncut : s.pool.cancelled = false → s.discarded = []
  jobs : (List.range s.issued).Perm (s.discarded ++ (s.pool.unbegun ++ s.begun))
  begun : s.begun.Perm (s.ended ++ s.pool.running)

variable {settings : PoolSettings} {s s' : Roster}

theorem kept_ofSettings (settings : PoolSettings) : Kept settings (ofSettings settings) where
  settings := rfl
  crew := ⟨List.nodup_nil, nofun, rfl, rfl, nofun, nofun⟩
  bound := Nat.zero_le _
  staffed _ h := absurd rfl h
  cleared _ h := absurd h Bool.false_ne_true
  cancels h := absurd h nofun
  accepts _ _ := rfl
  uncut _ := rfl
  jobs := List.Perm.refl _
  begun := List.Perm.refl _

theorem Kept.nodup (h : Kept settings s) : (s.pool.workers.map Worker.number).Nodup := by
  have := h.crew.nodup
  rw [emptied_workers] at this
  exact this

/-- a pool that was not cancelled is sound as it is -/
theorem Kept.sound (h : Kept settings s) (hc : s.pool.cancelled = false) : s.pool.Sound := by
  have := h.crew
  rw [emptied_of_not_cancelled hc] at this
  exact this

theorem Kept.not_cancelled (h : Kept settings s) (ha : s.pool.accepting = true) :
    s.pool.cancelled = false := by
  have := h.crew.not_cancelled
  simp only [emptied_accepting, emptied_cancelled] at this
  exact this ha

/-- a move of a worker, whatever becomes of the jobs -/
theorem Kept.crew_step {n : Nat} {m : Move} {p : Pool Nat} (h : Kept settings s)
    (hs : s.pool.step? n m = some p) :
    p.settings = settings ∧ p.emptied.Sound ∧ p.live ≤ p.settings.maxThreads ∧
      (p.cancelled = false → p.Staffed) ∧ p.accepting = s.pool.accepting ∧
      p.cancelled = s.pool.cancelled ∧ (s.pool.queue = [] → p.queue = []) := by
  obtain ⟨w, -, hw, hm⟩ := moved_of_step? h.nodup hs
  obtain ⟨hset, haccepting, hcancelled⟩ := hm.frame
  refine ⟨hset.trans h.settings, h.crew.step_emptied hs, ?_, ?_, haccepting, hcancelled, ?_⟩
  · rw [hset]
    exact hm.live_le.trans h.bound
  · intro hc
    rw [hcancelled] at hc
    exact (h.sound hc).staffed hw hm
  · intro hq
    cases hm with
    | receive phase first crew =>
      rw [hq] at first
      cases first
    | _ => exact hq

/-- after a move of a worker only the jobs are left to be looked at -/
theorem Kept.of_step? {n : Nat} {m : Move} {t : Roster} (h : Kept settings s)
    (hs : s.pool.step? n m = some t.pool) (hhold : t.hold = s.hold)
    (uncut : s.pool.cancelled = false → t.discarded = [])
    (jobs : (List.range t.issued).Perm (t.discarded ++ (t.pool.unbegun ++ t.begun)))
    (begun : t.begun.Perm (t.ended ++ t.pool.running)) : Kept settings t := by
  obtain ⟨hset, hcrew, hbound, hstaffed, ha, hc, hqueue⟩ := h.crew_step hs
  refine ⟨hset, hcrew, hbound, hstaffed, fun hk hc' => ?_, fun hk => ?_, fun hk hn => ?_,
    fun hn => uncut (hc.symm.trans hn), jobs, begun⟩
  · exact hqueue (h.cleared (hhold ▸ hk) (hc.symm.trans hc'))
  · exact hc.trans (h.cancels (hhold ▸ hk))
  · exact ha.trans (h.accepts (hhold ▸ hk) (hc.symm.trans hn))

theorem Kept.submit (h : Kept settings s) (hroom : 1 ≤ settings.maxThreads)
    (hname : ¬HoldsZero settings.threadName) (hfree : s.hold = .free) :
    Kept settings { s with
      pool := (s.pool.submit s.issued).2
      issued := s.issued + 1
      discarded := if s.pool.accepting then s.discarded else s.issued :: s.discarded } := by
  have hs := submitted s.pool s.issued false
  obtain ⟨hset, haccepting, hcancelled⟩ := hs.frame
  by_cases ha : s.pool.accepting = true
  · have hc := h.not_cancelled ha
    have hc' := hcancelled.trans hc
    have hsound := h.sound hc
    obtain ⟨hunbegun, hrunning⟩ := hs.unbegun ha
    have hok : (s.pool.submit s.issued).1 = .ok () := by
      refine (submit_ok_iff _ _).mpr fun hdue => hname ?_
      rw [← h.settings]
      exact hdue.2
    refine ⟨hset.trans h.settings, ?_, ?_, fun _ => ?_, fun _ hc => ?_, fun hk => ?_, fun _ _ => ?_,
      fun _ => ?_, ?_, ?_⟩
    · rw [emptied_of_not_cancelled hc']
      exact hsound.submitted hs
    · show (s.pool.submit s.issued).2.live ≤ (s.pool.submit s.issued).2.settings.maxThreads
      rw [hset]
      exact submit_live_le _ h.bound
    · rw [hok] at hs
      exact hsound.staffed_submitted (by rw [h.settings]; exact hroom) (h.staffed hc) hs
    · rw [show (s.pool.submit s.issued).2.cancelled = true from hc] at hc'
      cases hc'
    · rw [hfree] at hk
      cases hk
    · exact haccepting.trans ha
    · rw [if_pos ha]
      exact h.uncut hc
    · rw [if_pos ha, List.range_succ]
      refine (List.perm_append_singleton _ _).trans ((h.jobs.cons _).trans ?_)
      refine List.perm_middle.symm.trans (List.Perm.append_left _ ?_)
      exact hunbegun.symm.append_right s.begun
    · show s.begun.Perm (s.ended ++ (s.pool.submit s.issued).2.running)
      rw [hrunning]
      exact h.begun
  · -- only a cancel stops a pool that is still at hand
    have hc : s.pool.cancelled = true := by
      by_contra hc
      exact ha (h.accepts hfree (Bool.eq_false_iff.mpr hc))
    have hsame : (s.pool.submit s.issued).2 = s.pool := by
      unfold Pool.submit
      rw [if_pos (by simpa using ha)]
    rw [hsame, if_neg ha]
    refine ⟨h.settings, h.crew, h.bound, h.staffed, h.cleared, h.cancels, h.accepts, fun hn => ?_, ?_,
      h.begun⟩
    · rw [show s.pool.cancelled = false from hn] at hc
      cases hc
    · rw [List.range_succ]
      exact (List.perm_append_singleton _ _).trans (h.jobs.cons _)

/-- **The invariant survives every step.** -/
theorem Kept.step (h : Kept settings s) (hroom : 1 ≤ settings.maxThreads)
    (hname : ¬HoldsZero settings.threadName) (hs : Step s s') : Kept settings s' := by
  cases hs with
  | submit free => exact h.submit hroom hname free
  | @move n m p makes other =>
    obtain ⟨w, -, hw, hm⟩ := moved_of_step? h.nodup makes
    obtain ⟨hunbegun, hrunning⟩ := hm.keeps hw other
    refine h.of_step? makes rfl h.uncut ?_ ?_
    · exact h.jobs.trans ((hunbegun.symm.append_right _).append_left _)
    · exact h.begun.trans (hrunning.symm.append_left _)
  | @begin n job w p worker phase goes makes =>
    obtain ⟨hunbegun, hrunning, -⟩ := start_unbegun h.nodup worker phase makes
    refine h.of_step? makes rfl h.uncut ?_ ?_
    · refine h.jobs.trans (List.Perm.append_left _ ?_)
      exact (hunbegun.append_right _).trans List.perm_middle.symm
    · refine (h.begun.cons job).trans (List.perm_middle.symm.trans ?_)
      exact (hrunning goes).symm.append_left _
  | @skip n job w p worker phase stopped makes =>
    obtain ⟨hunbegun, -, hrunning⟩ := start_unbegun h.nodup worker phase makes
    refine h.of_step? makes rfl (fun hn => ?_) ?_ ?_
    · rw [hn] at stopped
      cases stopped
    · refine h.jobs.trans (((hunbegun.append_right _).append_left _).trans ?_)
      exact List.perm_middle
    · exact h.begun.trans ((hrunning stopped).symm.append_left _)
  | @finish n job w worker phase =>
    obtain ⟨hunbegun, hrunning⟩ := finish_running h.nodup worker phase
    refine ⟨h.settings, ?_, h.bound, fun hn => ?_, h.cleared, h.cancels, h.accepts, h.uncut, ?_, ?_⟩
    · rw [emptied_finish]
      refine h.crew.setPhase ?_ phase rfl
      unfold worker?
      rw [emptied_workers]
      exact worker
    · exact staffed_setPhase _ (h.staffed hn)
    · exact h.jobs.trans ((hunbegun.symm.append_right _).append_left _)
    · exact h.begun.trans ((hrunning.append_left _).trans List.perm_middle)
  | raise free accepts =>
    have hc := h.not_cancelled accepts
    refine ⟨h.settings, ?_, h.bound, nofun, fun hk _ => absurd rfl hk, fun _ => rfl, nofun, nofun,
      h.jobs, h.begun⟩
    have hsound := (h.sound hc).cancel
    rw [cancel_of_accepting accepts] at hsound
    exact hsound
  | @discard job queue cancels first =>
    have hc := h.cancels cancels
    refine ⟨h.settings, ?_, h.bound, fun hn => ?_, fun hk _ => absurd cancels hk, fun _ => hc,
      fun hk _ => ?_, fun hn => ?_, ?_, h.begun⟩
    · have hcrew := h.crew
      rw [emptied_of_cancelled hc] at hcrew
      rw [emptied_of_cancelled (show ({ s.pool with queue } : Pool Nat).cancelled = true from hc)]
      exact hcrew
    · rw [show s.pool.cancelled = false from hn] at hc
      cases hc
    · rw [cancels] at hk
      cases hk
    · rw [show s.pool.cancelled = false from hn] at hc
      cases hc
    · have hjobs := h.jobs
      rw [Pool.unbegun, first] at hjobs
      exact hjobs.trans List.perm_middle
  | clear cancels empty =>
    refine ⟨h.settings, h.crew, h.bound, h.staffed, fun _ _ => empty, nofun, fun _ hn => ?_, h.uncut,
      h.jobs, h.begun⟩
    rw [h.cancels cancels] at hn
    cases hn
  | shut free =>
    refine ⟨h.settings, ?_, h.bound, h.staffed, fun _ hc => ?_, nofun, nofun, h.uncut, h.jobs,
      h.begun⟩
    · rw [emptied_close]
      exact h.crew.close
    · exact h.cleared (by rw [free]; exact nofun) hc

theorem Kept.comes (h : Kept settings s) (hroom : 1 ≤ settings.maxThreads)
    (hname : ¬HoldsZero settings.threadName) (hs : Comes s s') : Kept settings s' := by
  induction hs with
  | refl => exact h
  | tail _ hstep ih => exact ih.step hroom hname hstep

/-- with nobody coming between, a cancel is the cancel of the pool -/
theorem comes_cancel (free : s.hold = .free) (accepts : s.pool.accepting = true) :
    Comes s { s with
      pool := s.pool.cancel.2
      discarded := s.pool.queue.reverse ++ s.discarded } := by
  have hqueue : ∀ (queue : List Nat) (t : Roster), t.hold = .cancelling → t.pool.queue = queue →
      Comes t { t with
        pool := { t.pool with queue := [] }
        hold := .free
        discarded := queue.reverse ++ t.discarded } := by
    intro queue
    induction queue with
    | nil =>
      intro t ht hq
      have hpool : ({ t.pool with queue := [] } : Pool Nat) = t.pool := by rw [← hq]
      rw [hpool]
      exact Relation.ReflTransGen.single (Step.clear ht hq)
    | cons job queue ih =>
      intro t ht hq
      refine Relation.ReflTransGen.head (Step.discard ht hq) ?_
      have h := ih { t with pool := { t.pool with queue }, discarded := job :: t.discarded } ht rfl
      rw [List.reverse_cons, List.append_assoc]
      exact h
  refine Relation.ReflTransGen.head (Step.raise free accepts) ?_
  have h := hqueue s.pool.queue s.raised rfl rfl
  rw [cancel_of_accepting accepts]
  rw [← free] at h
  exact h

/-! ## what a pool comes to -/

theorem Kept.nodup_jobs (h : Kept settings s) :
    (s.discarded ++ (s.pool.unbegun ++ s.begun)).Nodup := h.jobs.nodup_iff.mp List.nodup_range

/-- no job is begun that was begun or discarded before -/
theorem Kept.nodup_begun (h : Kept settings s) : s.begun.Nodup :=
  (List.nodup_append.mp (List.nodup_append.mp h.nodup_jobs).2.1).2.1

theorem Kept.not_begun_of_discarded (h : Kept settings s) {job : Nat} (hd : job ∈ s.discarded) :
    job ∉ s.begun := by
  intro hb
  exact (List.nodup_append.mp h.nodup_jobs).2.2 job hd job (List.mem_append_right _ hb) rfl

theorem Kept.not_begun_of_queued (h : Kept settings s) {job : Nat} (hq : job ∈ s.pool.queue) :
    job ∉ s.begun := by
  intro hb
  have hnodup := (List.nodup_append.mp h.nodup_jobs).2.1
  exact (List.nodup_append.mp hnodup).2.2 job (List.mem_append_left _ hq) job hb rfl

/-- once all workers went, every job was discarded or has run -/
theorem Kept.jobs_of_drained (h : Kept settings s) (hd : s.Drained) :
    (List.range s.issued).Perm (s.discarded ++ s.begun) ∧ s.begun.Perm s.ended := by
  have hlive := h.crew.live
  simp only [emptied_live, emptied_workers, hd.2] at hlive
  have hworkers : s.pool.workers = [] := List.length_eq_zero_iff.mp hlive.symm
  have hqueue : s.pool.queue = [] := by
    cases hc : s.pool.cancelled with
    | true => exact h.cleared (by rw [hd.1]; exact nofun) hc
    | false =>
      by_contra hq
      exact h.staffed hc hq hworkers
  have hunbegun : s.pool.unbegun = [] := by
    rw [Pool.unbegun, hqueue, hworkers]
    rfl
  have hrunning : s.pool.running = [] := by
    rw [Pool.running, hworkers]
    rfl
  have hjobs := h.jobs
  have hbegun := h.begun
  rw [hunbegun, List.nil_append] at hjobs
  rw [hrunning, List.append_nil] at hbegun
  exact ⟨hjobs, hbegun⟩

theorem Kept.ran_of_drained (h : Kept settings s) (hd : s.Drained) {job : Nat}
    (hissued : job < s.issued) (hkept : job ∉ s.discarded) :
    s.begun.count job = 1 ∧ s.ended.count job = 1 := by
  obtain ⟨hjobs, hended⟩ := h.jobs_of_drained hd
  have hmem : job ∈ s.begun :=
    (List.mem_append.mp (hjobs.subset (List.mem_range.mpr hissued))).resolve_left hkept
  have hcount := List.count_eq_one_of_mem h.nodup_begun hmem
  exact ⟨hcount, (hended.count_eq job).symm.trans hcount⟩

/-- **A cancelled pool begins no job.** -/
theorem Kept.begun_step (h : Kept settings s) (hc : s.pool.cancelled = true) (hs : Step s s') :
    s'.begun = s.begun ∧ s'.pool.cancelled = true := by
  cases hs with
  | submit free => exact ⟨rfl, (submitted s.pool s.issued false).frame.2.2.trans hc⟩
  | move makes other =>
    obtain ⟨-, -, -, -, -, hcancelled, -⟩ := h.crew_step makes
    exact ⟨rfl, hcancelled.trans hc⟩
  | begin worker phase goes makes =>
    rw [goes] at hc
    cases hc
  | skip worker phase stopped makes =>
    obtain ⟨-, -, -, -, -, hcancelled, -⟩ := h.crew_step makes
    exact ⟨rfl, hcancelled.trans hc⟩
  | finish worker phase => exact ⟨rfl, hc⟩
  | raise free accepts => exact ⟨rfl, rfl⟩
  | discard cancels first => exact ⟨rfl, hc⟩
  | clear cancels empty => exact ⟨rfl, hc⟩
  | shut free => exact ⟨rfl, hc⟩

theorem Kept.begun_comes (h : Kept settings s) (hroom : 1 ≤ settings.maxThreads)
    (hname : ¬HoldsZero settings.threadName) (hc : s.pool.cancelled = true) (hs : Comes s s') :
    s'.begun = s.begun ∧ s'.pool.cancelled = true := by
  induction hs with
  | refl => exact ⟨rfl, hc⟩
  | tail hcomes hstep ih =>
    obtain ⟨hbegun, hcancelled⟩ := (h.comes hroom hname hcomes).begun_step ih.2 hstep
    exact ⟨hbegun.trans ih.1, hcancelled⟩

/-- **The protocol of a pool**, in every state that it comes to: the counts are in order and never
fall below zero, and no wait of a worker takes them below the minimum; what is queued has a worker
unless the pool was cancelled; a job is begun at most once; when the wait of a shutdown says that all
workers went, every job that no cancel took has run once; and what is queued when a cancel begins is
never begun. -/
theorem protocol (hroom : 1 ≤ settings.maxThreads) (hname : ¬HoldsZero settings.threadName)
    (h : Comes (ofSettings settings) s) :
    (s.pool.idle ≤ s.pool.live ∧ s.pool.live ≤ settings.maxThreads ∧ s.pool.Counted) ∧
    (s.pool.cancelled = false → s.pool.queue ≠ [] → 1 ≤ s.pool.live) ∧
    s.begun.Nodup ∧
    (s.Drained → ∀ job < s.issued, job ∉ s.discarded →
      s.begun.count job = 1 ∧ s.ended.count job = 1) ∧
    ((s.pool.cancelled = false → s.discarded = []) ∧ ∀ job ∈ s.discarded, job ∉ s.begun) ∧
    (s.hold = .free → s.pool.accepting = true → ∀ s', Comes s.raised s' →
      ∀ job ∈ s.pool.queue, job ∉ s'.begun) := by
  have hkept := (kept_ofSettings settings).comes hroom hname h
  refine ⟨⟨idle_le_live hkept.crew, ?_, counted_of_sound hkept.crew⟩, ?_, hkept.nodup_begun,
    fun hd job => hkept.ran_of_drained hd,
    ⟨hkept.uncut, fun job => hkept.not_begun_of_discarded⟩, ?_⟩
  · exact hkept.bound.trans_eq (congrArg _ hkept.settings)
  · intro hc hq
    have hne := hkept.staffed hc hq
    rw [(hkept.sound hc).live]
    exact List.length_pos_iff.mpr hne
  · intro hfree haccepts s' hs job hjob
    have hraised := hkept.step hroom hname (Step.raise hfree haccepts)
    rw [(hraised.begun_comes hroom hname rfl hs).1]
    exact hkept.not_begun_of_queued hjob

/-- room for one worker -/
def single : PoolSettings :=
  { minThreads := 0, maxThreads := 1, keepAliveMs := 1000, threadName := "pool" }

/-- the pool with its worker -/
def atWork (phase : Phase Nat) (idle : Nat) (queue : List Nat) (cancelled : Bool) : Pool Nat :=
  { settings := single, queue, accepting := !cancelled, cancelled, workers := [⟨1, phase, 0⟩],
    live := 1, idle, spawned := 1 }

/-- the worker went, of two jobs the first has run and a cancel took the second -/
def spent : Roster :=
  { pool := { settings := single, accepting := false, cancelled := true, spawned := 1 }
    hold := .shut, issued := 2, begun := [0], ended := [0], discarded := [1] }

theorem comes_spent : Comes (ofSettings single) spent := by
  have queued : Comes (ofSettings single) ⟨atWork .waiting 1 [0] false, .free, 1, [], [], []⟩ :=
    .single (.submit rfl)
  have held : Comes (ofSettings single) ⟨atWork (.held 0) 1 [] false, .free, 1, [], [], []⟩ :=
    queued.tail (.move (n := 1) (m := .receive) rfl (by decide))
  have ready : Comes (ofSettings single) ⟨atWork (.ready 0) 0 [] false, .free, 1, [], [], []⟩ :=
    held.tail (.move (n := 1) (m := .engage) rfl (by decide))
  have runs : Comes (ofSettings single) ⟨atWork (.running 0) 0 [] false, .free, 1, [0], [], []⟩ :=
    ready.tail (.begin (n := 1) rfl rfl rfl rfl)
  have second : Comes (ofSettings single)
      ⟨atWork (.running 0) 0 [1] false, .free, 2, [0], [], []⟩ := runs.tail (.submit rfl)
  have cancelled : Comes (ofSettings single)
      ⟨atWork (.running 0) 0 [] true, .free, 2, [0], [], [1]⟩ := second.trans (comes_cancel rfl rfl)
  have ended : Comes (ofSettings single) ⟨atWork .resting 0 [] true, .free, 2, [0], [0], [1]⟩ :=
    cancelled.tail (.finish (n := 1) rfl rfl)
  have rested : Comes (ofSettings single) ⟨atWork .waiting 1 [] true, .free, 2, [0], [0], [1]⟩ :=
    ended.tail (.move (n := 1) (m := .rest) rfl (by decide))
  have leaves : Comes (ofSettings single) ⟨atWork .leaving 1 [] true, .free, 2, [0], [0], [1]⟩ :=
    rested.tail (.move (n := 1) (m := .leave) rfl (by decide))
  have gone : Comes (ofSettings single) { spent with hold := .free } :=
    leaves.tail (.move (n := 1) (m := .retire) rfl (by decide))
  exact gone.tail (.shut rfl)

theorem protocol_spent :
    (spent.Drained ∧ spent.begun.count 0 = 1 ∧ spent.ended.count 0 = 1) ∧ 1 ∉ spent.begun ∧
      spent.pool.live ≤ 1 := by
  have h := protocol (by decide : 1 ≤ single.maxThreads) (by decide) comes_spent
  have hdrained : spent.Drained := ⟨rfl, rfl⟩
  obtain ⟨⟨-, hlive, -⟩, -, -, hran, ⟨-, hdiscarded⟩, -⟩ := h
  exact ⟨⟨hdrained, hran hdrained 0 (by decide) (by decide)⟩, hdiscarded 1 (by decide), hlive⟩

end Roster
end Pool
end Precinct
