import Mathlib
import Precinct.Pool.Clock

/-!
# The crew of a pool

What the counts of a pool have to do with its workers, and where its jobs are.

* `Pool.jobs`         the jobs not yet done: those queued and those that workers have in hand;
* `Pool.Sound`        the invariant: workers have numbers of their own, `live` counts them and `idle`
                      those not busy, a cancelled pool has an empty queue, and whoever leaves a pool
                      leaves one that takes no more jobs and has none queued;
* `Pool.Moved`        what one move of one worker does.  It says everything there is to say about a
                      move (`moved_of_step?`), so nothing below takes a move apart again;
* `Pool.Staffed`      no job is queued without a worker to take it;
* `Pool.submit_ok_iff` a job is taken up unless a worker is due whose name would hold the character
                      zero (`HoldsZero`);
* `elapse_induct`     time passes by expiries, and by nothing else that matters here;
* `Pool.Advance`      what becomes of a pool while nobody outside touches it, and `Pool.Change` what
                      may become of it at all.

A move loses no job unless the pool was cancelled (`Moved.jobs_perm`), and brings none in.
-/

namespace Precinct

/-! ## names of workers -/

/-- whether the character zero is in a text -/
def HoldsZero (text : String) : Prop := '\x00' ∈ text.toList

instance (text : String) : Decidable (HoldsZero text) := inferInstanceAs (Decidable (_ ∈ _))

theorem zero_notMem_toString (n : Nat) : '\x00' ∉ (toString n).toList := by
  rw [Nat.toString_eq_ofList_toDigits, String.toList_ofList]
  intro hmem
  exact absurd (Nat.isDigit_of_mem_toDigits (by decide) (by decide) hmem) (by decide)

/-! ## phases -/

namespace Phase
variable {J : Type}

/-- the job that a worker has in hand -/
def job? : Phase J → Option J
  | held job | ready job | running job => some job
  | waiting | resting | leaving => none

/-- whether a worker is counted idle -/
def isIdle : Phase J → Bool
  | waiting | held _ | leaving => true
  | ready _ | running _ | resting => false

end Phase

namespace Pool
variable {J : Type}

/-- the jobs that workers have in hand -/
def inHand (workers : List (Worker J)) : List J := workers.filterMap fun w => w.phase.job?

/-- how many workers are counted idle -/
def idlers (workers : List (Worker J)) : Nat := workers.countP fun w => w.phase.isIdle

/-- the jobs of a pool that are not done -/
def jobs (p : Pool J) : List J := p.queue ++ inHand p.workers

/-- the workers but the one with a number -/
def others (p : Pool J) (number : Nat) : List (Worker J) :=
  p.workers.filter fun w => w.number != number

/-- what holds of every pool -/
structure Sound (p : Pool J) : Prop where
  nodup : (p.workers.map Worker.number).Nodup
  spawned : ∀ w ∈ p.workers, w.number ≤ p.spawned
  live : p.live = p.workers.length
  idle : p.idle = idlers p.workers
  stopped : p.cancelled = true → p.accepting = false ∧ p.queue = []
  leaving : ∀ w ∈ p.workers, w.phase = .leaving → p.accepting = false ∧ p.queue = []

/-- a worker is there for what is queued -/
def Staffed (p : Pool J) : Prop := p.queue ≠ [] → p.workers ≠ []

/-- what a move of the worker `w` does, the other workers being `rest` -/
inductive Moved (p : Pool J) (w : Worker J) (rest : List (Worker J)) : Move → Pool J → Prop
  | receive {job : J} {queue : List J} {workers : List (Worker J)}
      (phase : w.phase = .waiting) (first : p.queue = job :: queue)
      (crew : workers.Perm ({ w with phase := .held job } :: rest)) :
      Moved p w rest .receive { p with queue, workers }
  | engage {job : J} {workers : List (Worker J)} (phase : w.phase = .held job)
      (crew : workers.Perm ({ w with phase := .ready job } :: rest)) :
      Moved p w rest .engage { p with idle := p.idle - 1, workers }
  | run {job : J} {workers : List (Worker J)} (phase : w.phase = .ready job)
      (goes : p.cancelled = false)
      (crew : workers.Perm ({ w with phase := .running job } :: rest)) :
      Moved p w rest .start { p with workers }
  | skip {job : J} {workers : List (Worker J)} (phase : w.phase = .ready job)
      (stopped : p.cancelled = true)
      (crew : workers.Perm ({ w with phase := .resting } :: rest)) :
      Moved p w rest .start { p with workers }
  | rest {workers : List (Worker J)} (phase : w.phase = .resting)
      (crew : workers.Perm (⟨w.number, .waiting, p.now⟩ :: rest)) :
      Moved p w rest .rest { p with idle := p.idle + 1, workers }
  | leave {workers : List (Worker J)} (phase : w.phase = .waiting)
      (finished : p.cancelled = true ∨ p.accepting = false ∧ p.queue = [])
      (crew : workers.Perm ({ w with phase := .leaving } :: rest)) :
      Moved p w rest .leave { p with workers }
  | retire {workers : List (Worker J)} (phase : w.phase = .leaving) (crew : workers.Perm rest) :
      Moved p w rest .retire { p with workers, live := p.live - 1, idle := p.idle - 1 }
  | expire {workers : List (Worker J)} (phase : w.phase = .waiting)
      (above : p.settings.minThreads < p.live) (empty : p.queue = []) (crew : workers.Perm rest) :
      Moved p w rest .expire { p with workers, live := p.live - 1, idle := p.idle - 1 }

variable {p p' : Pool J} {w w' : Worker J} {rest : List (Worker J)} {n : Nat}

theorem idlers_cons (w : Worker J) (rest : List (Worker J)) :
    idlers (w :: rest) = idlers rest + w.phase.isIdle.toNat := by
  rw [idlers, List.countP_cons]
  cases w.phase.isIdle <;> rfl

theorem idlers_perm {l m : List (Worker J)} (h : l.Perm m) : idlers l = idlers m := h.countP_eq _

/-! ## one worker and the others -/

theorem worker?_number (h : p.worker? n = some w) : w.number = n := by
  have := List.find?_some h
  exact beq_iff_eq.mp this

theorem workers_perm (hp : (p.workers.map Worker.number).Nodup) (h : p.worker? n = some w) :
    p.workers.Perm (w :: p.others n) := by
  rw [worker?] at h
  rw [others]
  generalize p.workers = workers at hp h ⊢
  induction workers with
  | nil => cases h
  | cons v vs ih =>
    rw [List.map_cons, List.nodup_cons] at hp
    rw [List.find?_cons] at h
    by_cases hv : v.number = n
    · rw [beq_iff_eq.mpr hv] at h
      cases h
      rw [List.filter_cons_of_neg (by simpa using hv), List.filter_eq_self.mpr]
      intro u hu
      rw [bne_iff_ne]
      rintro rfl
      exact hp.1 (List.mem_map.mpr ⟨u, hu, hv.symm⟩)
    · rw [beq_eq_false_iff_ne.mpr hv] at h
      rw [List.filter_cons_of_pos (by simpa using hv)]
      exact ((ih hp.2 h).cons v).trans (List.Perm.swap w v _)

theorem number_ne_of_mem_others {v : Worker J} (h : v ∈ p.others n) : v.number ≠ n :=
  bne_iff_ne.mp (List.mem_filter.mp h).2

theorem setPhase_perm (hp : (p.workers.map Worker.number).Nodup) (h : p.worker? n = some w)
    (phase : Phase J) :
    (p.setPhase n phase).workers.Perm ({ w with phase } :: p.others n) := by
  have hmap := (workers_perm hp h).map fun v => if v.number = n then { v with phase } else v
  rw [List.map_cons, if_pos (worker?_number h)] at hmap
  have hothers : ((p.others n).map fun v => if v.number = n then { v with phase } else v) =
      p.others n := by
    conv_rhs => rw [← List.map_id (p.others n)]
    exact List.map_congr_left fun v hv => if_neg (number_ne_of_mem_others hv)
  rw [hothers] at hmap
  exact hmap

/-- **What a move does.** -/
theorem moved_of_step? {m : Move} (hp : (p.workers.map Worker.number).Nodup)
    (h : p.step? n m = some p') :
    ∃ w, w.number = n ∧ p.workers.Perm (w :: p.others n) ∧ Moved p w (p.others n) m p' := by
  unfold step? at h
  cases hw : p.worker? n with
  | none =>
    rw [hw] at h
    cases h
  | some w =>
    rw [hw] at h
    have hn := worker?_number hw
    refine ⟨w, hn, workers_perm hp hw, ?_⟩
    dsimp only at h
    split at h
    · rename_i hphase
      split at h
      · cases h
      · rename_i job queue hq
        cases h
        exact .receive hphase hq (setPhase_perm hp hw _)
    · rename_i job hphase
      cases h
      exact .engage hphase (setPhase_perm hp hw _)
    · rename_i job hphase
      cases h
      cases hc : p.cancelled with
      | false => exact .run hphase hc (setPhase_perm hp hw _)
      | true => exact .skip hphase hc (setPhase_perm hp hw _)
    · rename_i hphase
      cases h
      subst hn
      exact .rest hphase (List.perm_append_singleton _ _)
    · rename_i hphase
      split at h
      · rename_i hfin
        cases h
        rw [Bool.or_eq_true, Bool.and_eq_true, Bool.not_eq_true', List.isEmpty_iff] at hfin
        exact .leave hphase hfin (setPhase_perm hp hw _)
      · cases h
    · rename_i hphase
      cases h
      exact .retire hphase (List.Perm.refl _)
    · rename_i hphase
      split at h
      · rename_i hfin
        cases h
        rw [Bool.and_eq_true, decide_eq_true_eq, List.isEmpty_iff] at hfin
        exact .expire hphase hfin.1 hfin.2 (List.Perm.refl _)
      · cases h
    · cases h

/-! ## the invariant -/

theorem Sound.replace (h : p.Sound) (hw : p.workers.Perm (w :: rest))
    (hw' : p'.workers.Perm (w' :: rest)) (hnumber : w'.number = w.number)
    (hspawned : p'.spawned = p.spawned) (hlive : p'.live = p.live)
    (hidle : p'.idle + w.phase.isIdle.toNat = p.idle + w'.phase.isIdle.toNat)
    (hstopped : p'.cancelled = true → p'.accepting = false ∧ p'.queue = [])
    (hleaving : ∀ v ∈ w' :: rest, v.phase = .leaving → p'.accepting = false ∧ p'.queue = []) :
    p'.Sound where
  nodup := by
    have hnodup : ((w :: rest).map Worker.number).Nodup := (hw.map _).nodup_iff.mp h.nodup
    rw [List.map_cons, ← hnumber, ← List.map_cons] at hnodup
    exact (hw'.map _).nodup_iff.mpr hnodup
  spawned v hv := by
    rw [hspawned]
    rcases List.mem_cons.mp (hw'.subset hv) with rfl | hrest
    · rw [hnumber]
      exact h.spawned w (hw.symm.subset List.mem_cons_self)
    · exact h.spawned v (hw.symm.subset (List.mem_cons_of_mem w hrest))
  live := by rw [hlive, h.live, hw.length_eq, hw'.length_eq, List.length_cons, List.length_cons]
  idle := by
    have hbefore := h.idle
    rw [idlers_perm hw, idlers_cons] at hbefore
    rw [idlers_perm hw', idlers_cons]
    omega
  stopped := hstopped
  leaving v hv := hleaving v (hw'.subset hv)

theorem Sound.removal (h : p.Sound) (hw : p.workers.Perm (w :: rest)) (hidle : w.phase.isIdle = true)
    {workers : List (Worker J)} (hw' : workers.Perm rest) :
    Sound { p with workers, live := p.live - 1, idle := p.idle - 1 } where
  nodup := by
    have hnodup : ((w :: rest).map Worker.number).Nodup := (hw.map _).nodup_iff.mp h.nodup
    rw [List.map_cons, List.nodup_cons] at hnodup
    exact (hw'.map _).nodup_iff.mpr hnodup.2
  spawned v hv := h.spawned v (hw.symm.subset (List.mem_cons_of_mem w (hw'.subset hv)))
  live := by
    show p.live - 1 = workers.length
    rw [h.live, hw.length_eq, hw'.length_eq, List.length_cons, Nat.add_sub_cancel]
  idle := by
    show p.idle - 1 = idlers workers
    rw [h.idle, idlers_perm hw, idlers_perm hw', idlers_cons, hidle]
    rfl
  stopped := h.stopped
  leaving v hv := h.leaving v (hw.symm.subset (List.mem_cons_of_mem w (hw'.subset hv)))

/-- **The invariant survives every move.** -/
theorem Sound.moved {m : Move} (h : p.Sound) (hw : p.workers.Perm (w :: rest))
    (hm : Moved p w rest m p') : p'.Sound := by
  have hrest : ∀ v ∈ rest, v.phase = .leaving → p.accepting = false ∧ p.queue = [] :=
    fun v hv => h.leaving v (hw.symm.subset (List.mem_cons_of_mem w hv))
  have hcrew : ∀ v : Worker J, v.phase ≠ .leaving →
      ∀ u ∈ v :: rest, u.phase = .leaving → p.accepting = false ∧ p.queue = [] := by
    intro v hv u hu hleave
    rcases List.mem_cons.mp hu with rfl | hu
    · exact absurd hleave hv
    · exact hrest u hu hleave
  cases hm with
  | @receive job queue workers phase first crew =>
    have hqueued : p.queue ≠ [] := by
      rw [first]
      exact List.cons_ne_nil _ _
    refine h.replace hw crew rfl rfl rfl (by rw [phase]; rfl)
      (fun hc => absurd (h.stopped hc).2 hqueued) ?_
    intro u hu hleave
    exact absurd (hcrew { w with phase := .held job } nofun u hu hleave).2 hqueued
  | engage phase crew =>
    refine h.replace hw crew rfl rfl rfl ?_ h.stopped (hcrew _ nofun)
    -- a worker that holds a job is counted idle, so there is one to take off
    have hpos : 0 < p.idle := by
      rw [h.idle, idlers_perm hw, idlers_cons, phase]
      exact Nat.succ_pos _
    rw [phase]
    exact Nat.sub_add_cancel hpos
  | run phase goes crew =>
    exact h.replace hw crew rfl rfl rfl (by rw [phase]; rfl) h.stopped (hcrew _ nofun)
  | skip phase stopped crew =>
    exact h.replace hw crew rfl rfl rfl (by rw [phase]; rfl) h.stopped (hcrew _ nofun)
  | rest phase crew =>
    exact h.replace hw crew rfl rfl rfl (by rw [phase]; rfl) h.stopped (hcrew _ nofun)
  | leave phase finished crew =>
    refine h.replace hw crew rfl rfl rfl (by rw [phase]; rfl) h.stopped ?_
    intro u hu hleave
    rcases List.mem_cons.mp hu with rfl | hu
    · exact finished.elim h.stopped id
    · exact hrest u hu hleave
  | retire phase crew => exact h.removal hw (by rw [phase]; rfl) crew
  | expire phase above empty crew => exact h.removal hw (by rw [phase]; rfl) crew

theorem Moved.frame {m : Move} (hm : Moved p w rest m p') :
    p'.settings = p.settings ∧ p'.accepting = p.accepting ∧ p'.cancelled = p.cancelled := by
  cases hm <;> exact ⟨rfl, rfl, rfl⟩

/-- a worker goes only when nothing is queued, so there is one after every move -/
theorem Sound.staffed {m : Move} (h : p.Sound) (hw : p.workers.Perm (w :: rest))
    (hm : Moved p w rest m p') : p'.Staffed := by
  have hne : ∀ {v : Worker J} {workers : List (Worker J)}, workers.Perm (v :: rest) →
      workers ≠ [] := by
    rintro v workers hperm rfl
    exact List.cons_ne_nil _ _ hperm.nil_eq.symm
  cases hm with
  | receive phase first crew => exact fun _ => hne crew
  | engage phase crew => exact fun _ => hne crew
  | run phase goes crew => exact fun _ => hne crew
  | skip phase stopped crew => exact fun _ => hne crew
  | rest phase crew => exact fun _ => hne crew
  | leave phase finished crew => exact fun _ => hne crew
  | retire phase crew =>
    exact fun hq => absurd (h.leaving w (hw.symm.subset List.mem_cons_self) phase).2 hq
  | expire phase above empty crew => exact fun hq => absurd empty hq

/-! ## jobs -/

theorem inHand_cons (w : Worker J) (rest : List (Worker J)) :
    inHand (w :: rest) = w.phase.job?.toList ++ inHand rest := by
  rw [inHand, List.filterMap_cons]
  cases w.phase.job? <;> rfl

theorem inHand_perm {l m : List (Worker J)} (h : l.Perm m) : (inHand l).Perm (inHand m) :=
  h.filterMap _

theorem jobs_perm {workers : List (Worker J)} (queue : List J) (h : workers.Perm (w :: rest)) :
    (queue ++ inHand workers).Perm (queue ++ (w.phase.job?.toList ++ inHand rest)) := by
  rw [← inHand_cons]
  exact (inHand_perm h).append_left _

/-- without workers only the queue has jobs -/
theorem jobs_eq_queue (h : p.workers = []) : p.jobs = p.queue := by
  rw [jobs, h]
  exact List.append_nil _

/-- **A move brings no job in, and loses none** but when a job starts in a cancelled pool. -/
theorem Moved.jobs_perm {m : Move} (hw : p.workers.Perm (w :: rest)) (hm : Moved p w rest m p') :
    ∃ lost, p.jobs.Perm (lost ++ p'.jobs) ∧ (p.cancelled = false ∨ m ≠ .start → lost = []) := by
  have hbefore := Pool.jobs_perm p.queue hw
  cases hm with
  | @receive job queue workers phase first crew =>
    refine ⟨[], ?_, fun _ => rfl⟩
    rw [phase, first] at hbefore
    rw [jobs, first]
    exact hbefore.trans (List.perm_middle.symm.trans (Pool.jobs_perm queue crew).symm)
  | engage phase crew =>
    rw [phase] at hbefore
    exact ⟨[], hbefore.trans (Pool.jobs_perm p.queue crew).symm, fun _ => rfl⟩
  | run phase goes crew =>
    rw [phase] at hbefore
    exact ⟨[], hbefore.trans (Pool.jobs_perm p.queue crew).symm, fun _ => rfl⟩
  | @skip job workers phase stopped crew =>
    rw [phase] at hbefore
    refine ⟨[job], ?_, ?_⟩
    · exact hbefore.trans (List.perm_middle.trans ((Pool.jobs_perm p.queue crew).symm.cons job))
    · rintro (hc | hm)
      · rw [hc] at stopped
        cases stopped
      · exact absurd rfl hm
  | rest phase crew =>
    rw [phase] at hbefore
    exact ⟨[], hbefore.trans (Pool.jobs_perm p.queue crew).symm, fun _ => rfl⟩
  | leave phase finished crew =>
    rw [phase] at hbefore
    exact ⟨[], hbefore.trans (Pool.jobs_perm p.queue crew).symm, fun _ => rfl⟩
  | retire phase crew =>
    rw [phase] at hbefore
    exact ⟨[], hbefore.trans ((inHand_perm crew).symm.append_left _), fun _ => rfl⟩
  | expire phase above empty crew =>
    rw [phase] at hbefore
    exact ⟨[], hbefore.trans ((inHand_perm crew).symm.append_left _), fun _ => rfl⟩

/-! ## the job that runs -/

/-- the running job of a worker goes on as another or ends: the other jobs stay -/
theorem exists_other_jobs {job : J} (h : p.Sound) (hw : p.worker? n = some w)
    (hphase : w.phase = .running job) :
    ∃ rest, p.jobs.Perm (job :: rest) ∧ (∀ job', (p.proceed n job').jobs.Perm (job' :: rest)) ∧
      (p.finish n).jobs.Perm rest := by
  refine ⟨p.queue ++ inHand (p.others n), ?_, fun job' => ?_, ?_⟩
  · have := Pool.jobs_perm p.queue (workers_perm h.nodup hw)
    rw [hphase] at this
    exact this.trans List.perm_middle
  · exact (Pool.jobs_perm p.queue (setPhase_perm h.nodup hw _)).trans List.perm_middle
  · exact Pool.jobs_perm p.queue (setPhase_perm h.nodup hw _)

theorem Sound.setPhase {job : J} {phase : Phase J} (h : p.Sound) (hw : p.worker? n = some w)
    (hphase : w.phase = .running job) (hidle : phase.isIdle = false) :
    (p.setPhase n phase).Sound := by
  have hperm := workers_perm h.nodup hw
  refine h.replace hperm (setPhase_perm h.nodup hw phase) rfl rfl rfl ?_ h.stopped ?_
  · rw [hphase]
    show p.idle + 0 = p.idle + phase.isIdle.toNat
    rw [hidle]
    rfl
  · intro v hv hleave
    rcases List.mem_cons.mp hv with rfl | hv
    · rw [show phase = .leaving from hleave] at hidle
      cases hidle
    · exact h.leaving v (hperm.symm.subset (List.mem_cons_of_mem w hv)) hleave

theorem staffed_setPhase (phase : Phase J) (h : p.Staffed) : (p.setPhase n phase).Staffed := by
  intro hq hnil
  exact h hq (List.map_eq_nil_iff.mp hnil)

/-! ## from outside -/

/-- what it can come to that a job is submitted; whether the system denies a worker -/
inductive Submitted (p : Pool J) (job : J) (denied : Bool) : Except Fault Unit → Pool J → Prop
  | refused (closed : p.accepting = false) : Submitted p job denied (.ok ()) p
  | queued (accepts : p.accepting = true)
      (busy : ¬(p.idle = 0 ∧ p.live < p.settings.maxThreads)) :
      Submitted p job denied (.ok ()) { p with queue := p.queue ++ [job] }
  | spawned (accepts : p.accepting = true) :
      Submitted p job denied (.ok ()) { p with
        queue := p.queue ++ [job]
        spawned := p.spawned + 1
        workers := p.workers ++ [⟨p.spawned + 1, .waiting, p.now⟩]
        live := p.live + 1
        idle := p.idle + 1 }
  | unmanned (accepts : p.accepting = true) (denies : denied = true) :
      Submitted p job denied (.ok ()) { p with queue := p.queue ++ [job], spawned := p.spawned + 1 }
  | broken (accepts : p.accepting = true) :
      Submitted p job denied (.error .workerName)
        { p with queue := p.queue ++ [job], spawned := p.spawned + 1 }

/-- **What submitting does.** -/
theorem submitted (p : Pool J) (job : J) (denied : Bool) :
    Submitted p job denied (p.submit job denied).1 (p.submit job denied).2 := by
  unfold submit
  by_cases ha : p.accepting = true
  · rw [if_neg (by rw [ha]; decide)]
    dsimp only
    split
    · split
      · exact .broken ha
      · split
        · rename_i hdenied
          exact .unmanned ha hdenied
        · exact .spawned ha
    · rename_i hbusy
      exact .queued ha hbusy
  · rw [Bool.not_eq_true] at ha
    rw [if_pos (by rw [ha]; rfl)]
    exact .refused ha

theorem Sound.submitted {job : J} {denied : Bool} {outcome : Except Fault Unit} (h : p.Sound)
    (hs : Submitted p job denied outcome p') : p'.Sound := by
  -- a pool that accepts jobs was not cancelled, and nobody leaves it
  have hno : p.accepting = true → ∀ {q : Prop}, p.accepting = false → q := fun ha _ hc => by
    rw [ha] at hc
    cases hc
  cases hs with
  | refused closed => exact h
  | queued accepts busy =>
    exact ⟨h.nodup, h.spawned, h.live, h.idle, fun hc => hno accepts (h.stopped hc).1,
      fun w hw hl => hno accepts (h.leaving w hw hl).1⟩
  | broken accepts | unmanned accepts denies =>
    exact ⟨h.nodup, fun w hw => (h.spawned w hw).trans (Nat.le_succ _), h.live, h.idle,
      fun hc => hno accepts (h.stopped hc).1, fun w hw hl => hno accepts (h.leaving w hw hl).1⟩
  | spawned accepts =>
    have hperm := List.perm_append_singleton (⟨p.spawned + 1, .waiting, p.now⟩ : Worker J) p.workers
    refine ⟨?_, ?_, ?_, ?_, fun hc => hno accepts (h.stopped hc).1, ?_⟩
    · refine ((hperm.map Worker.number).nodup_iff).mpr (List.nodup_cons.mpr ⟨?_, h.nodup⟩)
      intro hmem
      obtain ⟨w, hw, hnumber⟩ := List.mem_map.mp hmem
      have := h.spawned w hw
      rw [hnumber] at this
      exact absurd this (Nat.not_succ_le_self _)
    · intro w hw
      rcases List.mem_cons.mp (hperm.subset hw) with rfl | hw
      · exact le_refl _
      · exact (h.spawned w hw).trans (Nat.le_succ _)
    · show p.live + 1 = (p.workers ++ [_]).length
      rw [hperm.length_eq, List.length_cons, h.live]
    · show p.idle + 1 = idlers (p.workers ++ [_])
      rw [idlers_perm hperm, idlers_cons, h.idle]
      rfl
    · intro w hw hl
      rcases List.mem_cons.mp (hperm.subset hw) with rfl | hw
      · cases hl
      · exact hno accepts (h.leaving w hw hl).1

/-- an accepting pool takes the job -/
theorem Submitted.jobs_perm {job : J} {denied : Bool} {outcome : Except Fault Unit}
    (hs : Submitted p job denied outcome p') (ha : p.accepting = true) : p'.jobs.Perm (job :: p.jobs) := by
  have hqueue : ∀ hand : List J, ((p.queue ++ [job]) ++ hand).Perm (job :: (p.queue ++ hand)) := by
    intro hand
    rw [List.append_assoc]
    exact List.perm_middle
  cases hs with
  | refused closed =>
    rw [ha] at closed
    cases closed
  | queued accepts busy => exact hqueue _
  | broken accepts | unmanned accepts denies => exact hqueue _
  | spawned accepts =>
    have hperm := List.perm_append_singleton (⟨p.spawned + 1, .waiting, p.now⟩ : Worker J) p.workers
    exact (Pool.jobs_perm (p.queue ++ [job]) hperm).trans (hqueue _)

/-- with room for one worker, there is one once a job was submitted, unless it was denied -/
theorem Sound.staffed_submitted {job : J} (h : p.Sound) (hroom : 1 ≤ p.settings.maxThreads)
    (hp : p.Staffed) (hs : Submitted p job false (.ok ()) p') : p'.Staffed := by
  cases hs with
  | refused closed => exact hp
  | queued accepts busy =>
    rintro - hnil
    refine busy ⟨?_, ?_⟩
    · rw [h.idle, hnil]
      rfl
    · rw [h.live, hnil]
      exact hroom
  | spawned accepts => exact fun _ hnil => List.append_ne_nil_of_right_ne_nil _ (by simp) hnil
  | unmanned accepts denies => cases denies

theorem Submitted.frame {job : J} {denied : Bool} {outcome : Except Fault Unit}
    (hs : Submitted p job denied outcome p') :
    p'.settings = p.settings ∧ p'.accepting = p.accepting ∧ p'.cancelled = p.cancelled := by
  cases hs <;> exact ⟨rfl, rfl, rfl⟩

theorem Sound.close (h : p.Sound) : p.close.Sound :=
  ⟨h.nodup, h.spawned, h.live, h.idle, fun hc => ⟨rfl, (h.stopped hc).2⟩,
    fun w hw hl => ⟨rfl, (h.leaving w hw hl).2⟩⟩

theorem Sound.cancel (h : p.Sound) : p.cancel.2.Sound := by
  unfold Pool.cancel
  split
  · exact ⟨h.nodup, h.spawned, h.live, h.idle, fun _ => ⟨rfl, rfl⟩, fun _ _ _ => ⟨rfl, rfl⟩⟩
  · exact h

/-- an accepting pool is cancelled, and only what workers have in hand is left -/
theorem cancel_of_accepting (h : p.accepting = true) :
    p.cancel.2 = { p with queue := [], cancelled := true, accepting := false } := by
  rw [Pool.cancel, if_pos h]
  rfl

theorem Sound.not_cancelled (h : p.Sound) (haccepting : p.accepting = true) :
    p.cancelled = false := by
  rw [← Bool.not_eq_true]
  intro hc
  have := (h.stopped hc).1
  rw [haccepting] at this
  cases this

/-- the name of a worker holds the character zero if and only if the thread name does -/
theorem contains_workerName (p : Pool J) (number : Nat) :
    (p.workerName number).toList.contains '\x00' = true ↔ HoldsZero p.settings.threadName := by
  have hdigits := zero_notMem_toString number
  have hdash : '\x00' ∉ ("-" : String).toList := by decide
  rw [List.contains_iff_mem, workerName, String.toList_append, String.toList_append,
    List.mem_append, List.mem_append, HoldsZero]
  tauto

/-- whether the next job needs a worker that there is not yet -/
def Due (p : Pool J) : Prop := p.accepting = true ∧ p.idle = 0 ∧ p.live < p.settings.maxThreads

/-- **A job is taken up** unless a worker is due that cannot be named: one that is denied breaks
nothing off. -/
theorem submit_ok_iff (job : J) (denied : Bool) :
    (p.submit job denied).1 = .ok () ↔ ¬(p.Due ∧ HoldsZero p.settings.threadName) := by
  unfold submit
  by_cases ha : p.accepting = true
  · rw [if_neg (by rw [ha]; decide)]
    dsimp only
    by_cases hdue : p.idle = 0 ∧ p.live < p.settings.maxThreads
    · rw [if_pos hdue]
      have hname := contains_workerName
        ({ p with queue := p.queue ++ [job], spawned := p.spawned + 1 } : Pool J) (p.spawned + 1)
      split
      · rename_i hzero
        have hholds : HoldsZero p.settings.threadName := hname.mp hzero
        exact ⟨nofun, fun h => absurd ⟨⟨ha, hdue⟩, hholds⟩ h⟩
      · rename_i hzero
        have hholds : ¬HoldsZero p.settings.threadName := fun h => hzero (hname.mpr h)
        cases denied <;> exact ⟨fun _ h => hholds h.2, fun _ => rfl⟩
    · rw [if_neg hdue]
      exact ⟨fun _ h => hdue h.1.2, fun _ => rfl⟩
  · rw [if_pos (by rw [Bool.eq_false_iff.mpr ha]; rfl)]
    exact ⟨fun _ h => ha h.1.1, fun _ => rfl⟩

theorem submit_broken (job : J) (due : p.Due) (hname : HoldsZero p.settings.threadName) :
    (p.submit job).1 = .error .workerName := by
  have hs := submitted p job false
  have hrefused : (p.submit job).1 ≠ .ok () := fun h =>
    (submit_ok_iff job false).mp h ⟨due, hname⟩
  generalize p.submit job = e at hs hrefused
  cases e with
  | mk outcome p' =>
    cases hs with
    | broken accepts => rfl
    | _ => exact absurd rfl hrefused

/-! ## time -/

/-- the workers without the times at which they began to wait -/
def rounds (workers : List (Worker J)) : List (Nat × Phase J) :=
  workers.map fun w => (w.number, w.phase)

theorem mem_rounds {workers : List (Worker J)} (h : w ∈ workers) :
    (w.number, w.phase) ∈ rounds workers := List.mem_map_of_mem h

theorem rounds_renewWait (p : Pool J) (moment : Nat) (workers : List (Worker J)) :
    rounds (workers.map (p.renewWait moment)) = rounds workers := by
  rw [rounds, rounds, List.map_map]
  refine List.map_congr_left fun w _ => ?_
  show ((p.renewWait moment w).number, (p.renewWait moment w).phase) = (w.number, w.phase)
  unfold renewWait
  split <;> rfl

/-- what expiries keep is kept when time passes, if it does not depend on when anybody began to
wait -/
theorem elapse_induct {P : Pool J → Prop}
    (hexpire : ∀ p n p', P p → p.step? n .expire = some p' → P p')
    (hwait : ∀ p workers now, P p → (rounds workers).Perm (rounds p.workers) →
      P { p with workers, now })
    (h : P p) (ms : Nat) : P (p.elapse ms) := by
  have hrenew : ∀ q moment, P q → P (q.renew moment) := by
    intro q moment hq
    refine hwait q _ moment hq (((List.mergeSort_perm _ _).map _).trans (List.Perm.of_eq ?_))
    exact rounds_renewWait q moment q.workers
  have hpass : ∀ moment n q, P q → P (passTo moment (fun _ => false) n q) := by
    intro moment n
    induction n with
    | zero => exact fun q hq => hq
    | succ n ih =>
      intro q hq
      rw [passTo, if_neg (by decide)]
      split
      · rename_i time left hnext
        split
        · obtain ⟨w, hw, hstep⟩ := List.exists_of_findSome?_eq_some hnext
          obtain ⟨q', hq', heq⟩ := Option.map_eq_some_iff.mp hstep
          cases heq
          exact ih _ (hwait _ _ _ (hexpire q _ _ hq hq') (List.Perm.refl _))
        · exact hrenew q moment hq
      · exact hrenew q moment hq
  exact hpass _ _ p h

theorem inHand_eq_rounds (workers : List (Worker J)) :
    inHand workers = (rounds workers).filterMap fun e => e.2.job? := by
  rw [rounds, List.filterMap_map]
  rfl

theorem inHand_perm_of_rounds {l m : List (Worker J)} (h : (rounds l).Perm (rounds m)) :
    (inHand l).Perm (inHand m) := by
  rw [inHand_eq_rounds, inHand_eq_rounds]
  exact h.filterMap _

theorem Sound.of_rounds (h : p.Sound) {workers : List (Worker J)}
    (hr : (rounds workers).Perm (rounds p.workers)) (now : Nat) :
    Sound { p with workers, now } where
  nodup := by
    have hnodup : ((rounds p.workers).map Prod.fst).Nodup := by
      rw [rounds, List.map_map]
      exact h.nodup
    have := (hr.map Prod.fst).nodup_iff.mpr hnodup
    rw [rounds, List.map_map] at this
    exact this
  spawned w hw := by
    obtain ⟨v, hv, he⟩ := List.mem_map.mp (hr.subset (mem_rounds hw))
    rw [← (Prod.mk.inj he).1]
    exact h.spawned v hv
  live := by
    have := hr.length_eq
    rw [rounds, rounds, List.length_map, List.length_map] at this
    exact h.live.trans this.symm
  idle := by
    have hcount : ∀ l : List (Worker J), idlers l = (rounds l).countP fun e => e.2.isIdle := by
      intro l
      rw [rounds, List.countP_map]
      rfl
    show p.idle = idlers workers
    rw [h.idle, hcount, hcount, hr.countP_eq]
  stopped := h.stopped
  leaving w hw hl := by
    obtain ⟨v, hv, he⟩ := List.mem_map.mp (hr.subset (mem_rounds hw))
    exact h.leaving v hv ((Prod.mk.inj he).2.trans hl)

theorem Sound.step? {m : Move} (h : p.Sound) (hs : p.step? n m = some p') : p'.Sound := by
  obtain ⟨w, -, hw, hm⟩ := moved_of_step? h.nodup hs
  exact h.moved hw hm

theorem Sound.elapse (h : p.Sound) (ms : Nat) : (p.elapse ms).Sound :=
  elapse_induct (P := Sound) (fun _ _ _ hq hs => hq.step? hs)
    (fun _ _ now hq hr => hq.of_rounds hr now) h ms

/-- time changes nothing but the crew, and brings nobody in -/
theorem elapse_frame (p : Pool J) (h : p.Sound) (ms : Nat) :
    (p.elapse ms).settings = p.settings ∧ (p.elapse ms).accepting = p.accepting ∧
      (p.elapse ms).cancelled = p.cancelled ∧ (p.elapse ms).queue = p.queue ∧
      (p.elapse ms).jobs.Perm p.jobs ∧ (p.workers = [] → (p.elapse ms).workers = []) := by
  let P (q : Pool J) : Prop := q.Sound ∧ q.settings = p.settings ∧ q.accepting = p.accepting ∧
    q.cancelled = p.cancelled ∧ q.queue = p.queue ∧ q.jobs.Perm p.jobs ∧
    (p.workers = [] → q.workers = [])
  have hP : P (p.elapse ms) := by
    refine elapse_induct (P := P) ?_ ?_ ⟨h, rfl, rfl, rfl, rfl, List.Perm.refl _, id⟩ ms
    · rintro q n q' ⟨hsound, hset, hacc, hcan, hq, hjobs, hnil⟩ hs
      obtain ⟨w, -, hw, hm⟩ := moved_of_step? hsound.nodup hs
      obtain ⟨lost, hperm, hlost⟩ := hm.jobs_perm hw
      rw [hlost (Or.inr nofun)] at hperm
      refine ⟨hsound.step? hs, ?_⟩
      cases hm with
      | expire phase above empty crew =>
        refine ⟨hset, hacc, hcan, hq, hperm.symm.trans hjobs, fun hp => ?_⟩
        rw [hnil hp] at hw
        exact absurd hw.nil_eq (List.cons_ne_nil _ _).symm
    · rintro q workers now ⟨hsound, hset, hacc, hcan, hq, hjobs, hnil⟩ hr
      refine ⟨hsound.of_rounds hr now, hset, hacc, hcan, hq, ?_, fun hp => ?_⟩
      · exact ((inHand_perm_of_rounds hr).append_left q.queue).trans hjobs
      · rw [hnil hp] at hr
        exact List.map_eq_nil_iff.mp hr.eq_nil
  exact hP.2

/-! ## what a pool does by itself -/

/-- what becomes of a pool while nobody outside touches it -/
inductive Advance (p : Pool J) : Pool J → Prop
  | move {n : Nat} {m : Move} {p' : Pool J} (makes : p.step? n m = some p') : Advance p p'
  | proceed {n : Nat} {w : Worker J} {job : J} (job' : J) (worker : p.worker? n = some w)
      (phase : w.phase = .running job) : Advance p (p.proceed n job')
  | finish {n : Nat} {w : Worker J} {job : J} (worker : p.worker? n = some w)
      (phase : w.phase = .running job) : Advance p (p.finish n)
  | elapse (ms : Nat) : Advance p (p.elapse ms)

theorem Sound.advance (h : p.Sound) (ha : Advance p p') : p'.Sound := by
  cases ha with
  | move makes => exact h.step? makes
  | proceed job' worker phase => exact h.setPhase worker phase rfl
  | finish worker phase => exact h.setPhase worker phase rfl
  | elapse ms => exact h.elapse ms

theorem Advance.frame (h : p.Sound) (ha : Advance p p') :
    p'.settings = p.settings ∧ p'.accepting = p.accepting ∧ p'.cancelled = p.cancelled := by
  cases ha with
  | move makes =>
    obtain ⟨w, -, -, hm⟩ := moved_of_step? h.nodup makes
    exact hm.frame
  | proceed job' worker phase => exact ⟨rfl, rfl, rfl⟩
  | finish worker phase => exact ⟨rfl, rfl, rfl⟩
  | elapse ms =>
    obtain ⟨hset, hacc, hcan, -⟩ := elapse_frame p h ms
    exact ⟨hset, hacc, hcan⟩

theorem Advance.workers_nil (h : p.Sound) (ha : Advance p p') (hnil : p.workers = []) :
    p'.workers = [] := by
  have hnone : ∀ n, p.worker? n = none := fun n => by rw [worker?, hnil]; rfl
  cases ha with
  | move makes =>
    obtain ⟨w, -, hw, -⟩ := moved_of_step? h.nodup makes
    rw [hnil] at hw
    exact absurd hw.nil_eq (List.cons_ne_nil _ _).symm
  | proceed job' worker phase =>
    rw [hnone] at worker
    cases worker
  | finish worker phase =>
    rw [hnone] at worker
    cases worker
  | elapse ms =>
    obtain ⟨-, -, -, -, -, hworkers⟩ := elapse_frame p h ms
    exact hworkers hnil

theorem Advance.jobs_nil (h : p.Sound) (ha : Advance p p') (hnil : p.jobs = []) : p'.jobs = [] := by
  cases ha with
  | move makes =>
    obtain ⟨w, -, hw, hm⟩ := moved_of_step? h.nodup makes
    obtain ⟨lost, hperm, -⟩ := hm.jobs_perm hw
    rw [hnil] at hperm
    exact (List.append_eq_nil_iff.mp hperm.nil_eq.symm).2
  | proceed job' worker phase =>
    obtain ⟨rest, hperm, -⟩ := exists_other_jobs h worker phase
    rw [hnil] at hperm
    exact absurd hperm.nil_eq (List.cons_ne_nil _ _).symm
  | finish worker phase =>
    obtain ⟨rest, hperm, -⟩ := exists_other_jobs h worker phase
    rw [hnil] at hperm
    exact absurd hperm.nil_eq (List.cons_ne_nil _ _).symm
  | elapse ms =>
    obtain ⟨-, -, -, -, hperm, -⟩ := elapse_frame p h ms
    rw [hnil] at hperm
    exact hperm.eq_nil

/-- whoever goes leaves nothing queued behind -/
theorem Advance.staffed (h : p.Sound) (hs : p.Staffed) (ha : Advance p p') : p'.Staffed := by
  cases ha with
  | move makes =>
    obtain ⟨w, -, hw, hm⟩ := moved_of_step? h.nodup makes
    exact h.staffed hw hm
  | proceed job' worker phase => exact staffed_setPhase _ hs
  | finish worker phase => exact staffed_setPhase _ hs
  | elapse ms =>
    refine (elapse_induct (P := fun q => q.Sound ∧ q.Staffed) ?_ ?_ ⟨h, hs⟩ ms).2
    · rintro q n q' ⟨hq, -⟩ hstep
      obtain ⟨w, -, hw, hm⟩ := moved_of_step? hq.nodup hstep
      exact ⟨hq.step? hstep, hq.staffed hw hm⟩
    · rintro q workers now ⟨hq, hqs⟩ hr
      refine ⟨hq.of_rounds hr now, fun hne hnil => hqs hne ?_⟩
      rw [show workers = [] from hnil] at hr
      exact List.map_eq_nil_iff.mp hr.nil_eq.symm

/-! ## what a pool does, and what is done to it -/

/-- what becomes of a pool in one step of whoever has it; whether a worker may fail to start -/
inductive Change (p : Pool J) (broken : Bool) : Pool J → Prop
  | same : Change p broken p
  | advance {p' : Pool J} (goes : Advance p p') : Change p broken p'
  | submitted {job : J} {p' : Pool J} (takes : Submitted p job false (.ok ()) p') :
      Change p broken p'
  | unstarted {job : J} {denied : Bool} {outcome : Except Fault Unit} {p' : Pool J}
      (takes : Submitted p job denied outcome p') (breaks : broken = true) : Change p broken p'
  | close : Change p broken p.close
  | cancel : Change p broken p.cancel.2

variable {broken : Bool}

theorem Sound.change (h : p.Sound) (hc : Change p broken p') : p'.Sound := by
  cases hc with
  | same => exact h
  | advance goes => exact h.advance goes
  | submitted takes => exact h.submitted takes
  | unstarted takes breaks => exact h.submitted takes
  | close => exact h.close
  | cancel => exact h.cancel

theorem Change.settings (h : p.Sound) (hc : Change p broken p') : p'.settings = p.settings := by
  cases hc with
  | same => rfl
  | advance goes => exact (goes.frame h).1
  | submitted takes => exact takes.frame.1
  | unstarted takes breaks => exact takes.frame.1
  | close => rfl
  | cancel =>
    unfold Pool.cancel
    split <;> rfl

/-- where there is room for a worker and each can be started, what is queued has one -/
theorem Change.staffed (h : p.Sound) (hroom : 1 ≤ p.settings.maxThreads) (hp : p.Staffed)
    (hc : Change p false p') : p'.Staffed := by
  cases hc with
  | same => exact hp
  | advance goes => exact goes.staffed h hp
  | submitted takes => exact h.staffed_submitted hroom hp takes
  | unstarted takes breaks => cases breaks
  | close => exact hp
  | cancel =>
    unfold Pool.cancel
    split
    · exact fun hq => absurd rfl hq
    · exact hp

end Pool
end Precinct
