import Mathlib
import Precinct.Proofs.Pool.Crew

/-!
# Who runs which job of a pool

* `Pool.Unbegun`     a job that nobody runs yet: it is queued, or a worker holds it;
* `Pool.Runs`        the worker with a number runs a job;
* `mem_jobs_iff`     these are the jobs of a pool;
* `Pool.Onward`      what becomes of the jobs while no running job goes on as another one: only what
                     was unbegun is, and only what was unbegun is begun, but for what is new;
* `Onward.of_rounds`  this can be seen from the queue and from the workers one by one, so it holds of
                     every move (`onward_step?`), of time (`onward_elapse`) and of whatever is done to
                     a pool from outside;
* `runs_proceed`     a running job that goes on as another one does so at its worker alone;
* `Pool.InHand`      the worker with a number has a job in hand, begun or not: it comes by none but by
                     taking it off the queue (`inHand_of_step?`), whatever else is done to the pool.
-/

namespace Precinct
namespace Pool
variable {J : Type} {p p' q : Pool J} {n m : Nat} {v v' : J} {new : J → Prop}

/-- nobody runs the job yet -/
def Unbegun (p : Pool J) (v : J) : Prop :=
  v ∈ p.queue ∨ ∃ n, (n, .held v) ∈ rounds p.workers ∨ (n, .ready v) ∈ rounds p.workers

/-- the worker with a number runs the job -/
def Runs (p : Pool J) (n : Nat) (v : J) : Prop := (n, .running v) ∈ rounds p.workers

/-- nobody comes to a job but through the queue, and to the queue comes nothing but what is new -/
structure Onward (new : J → Prop) (p p' : Pool J) : Prop where
  unbegun : ∀ v, p'.Unbegun v → p.Unbegun v ∨ new v
  runs : ∀ n v, p'.Runs n v → p.Runs n v ∨ p.Unbegun v ∨ new v

/-! ## one worker -/

theorem mem_rounds_iff (workers : List (Worker J)) (e : Nat × Phase J) :
    e ∈ rounds workers ↔ ∃ w ∈ workers, (w.number, w.phase) = e := List.mem_map

theorem runs_of_worker? {w : Worker J} (h : p.worker? n = some w) (hphase : w.phase = .running v) :
    p.Runs n v := by
  rw [Runs, ← hphase, ← worker?_number h]
  exact mem_rounds (List.mem_of_find?_eq_some h)

/-- **A worker runs one job at a time**, for numbers are not used twice. -/
theorem Runs.eq (h : p.Runs n v) (hp : p.Sound) (h' : p.Runs n v') : v = v' := by
  obtain ⟨w, hw, he⟩ := (mem_rounds_iff _ _).mp h
  obtain ⟨w', hw', he'⟩ := (mem_rounds_iff _ _).mp h'
  cases Prod.mk.inj he with
  | intro hn hphase =>
    have hnumber : w'.number = w.number := (Prod.mk.inj he').1.trans hn.symm
    rw [List.inj_on_of_nodup_map hp.nodup hw' hw hnumber, hphase] at he'
    cases he'
    rfl

/-- the jobs of a pool are those that nobody runs yet and those that somebody runs -/
theorem mem_jobs_iff : v ∈ p.jobs ↔ p.Unbegun v ∨ ∃ n, p.Runs n v := by
  rw [jobs, List.mem_append, inHand_eq_rounds, List.mem_filterMap, Unbegun, or_assoc]
  refine or_congr_right ⟨?_, ?_⟩
  · rintro ⟨⟨n, phase⟩, he, hjob⟩
    cases phase with
    | held job =>
      cases hjob
      exact Or.inl ⟨n, Or.inl he⟩
    | ready job =>
      cases hjob
      exact Or.inl ⟨n, Or.inr he⟩
    | running job =>
      cases hjob
      exact Or.inr ⟨n, he⟩
    | waiting => cases hjob
    | resting => cases hjob
    | leaving => cases hjob
  · rintro (⟨n, he | he⟩ | ⟨n, he⟩)
    · exact ⟨_, he, rfl⟩
    · exact ⟨_, he, rfl⟩
    · exact ⟨_, he, rfl⟩

theorem Runs.mem_jobs (h : p.Runs n v) : v ∈ p.jobs := mem_jobs_iff.mpr (Or.inr ⟨n, h⟩)

/-! ## what becomes of the jobs -/

theorem Onward.of_rounds (hqueue : ∀ v ∈ p'.queue, p.Unbegun v ∨ new v)
    (hcrew : ∀ e ∈ rounds p'.workers,
      e ∈ rounds p.workers ∨ ∀ v, e.2.job? = some v → p.Unbegun v) : Onward new p p' := by
  refine ⟨fun v hv => ?_, fun n v hv => ?_⟩
  · rcases hv with hv | ⟨n, hv | hv⟩
    · exact hqueue v hv
    · exact Or.inl ((hcrew _ hv).elim (fun h => Or.inr ⟨n, Or.inl h⟩) fun h => h v rfl)
    · exact Or.inl ((hcrew _ hv).elim (fun h => Or.inr ⟨n, Or.inr h⟩) fun h => h v rfl)
  · exact (hcrew _ hv).imp id fun h => Or.inl (h v rfl)

theorem Onward.refl (p : Pool J) : Onward new p p :=
  .of_rounds (fun _ hv => Or.inl (Or.inl hv)) fun _ he => Or.inl he

theorem Onward.trans (h : Onward new p q) (h' : Onward new q p') : Onward new p p' := by
  refine ⟨fun v hv => ?_, fun n v hv => ?_⟩
  · exact (h'.unbegun v hv).elim (h.unbegun v) Or.inr
  · rcases h'.runs n v hv with hr | hu | hn
    · exact h.runs n v hr
    · exact Or.inr (h.unbegun v hu)
    · exact Or.inr (Or.inr hn)

theorem Onward.mono {new' : J → Prop} (h : Onward new p p') (hnew : ∀ v, new v → new' v) :
    Onward new' p p' :=
  ⟨fun v hv => (h.unbegun v hv).imp id (hnew v),
    fun n v hv => (h.runs n v hv).imp id (Or.imp id (hnew v))⟩

theorem Onward.jobs (h : Onward new p p') (hv : v ∈ p'.jobs) : v ∈ p.jobs ∨ new v := by
  have hunbegun : p.Unbegun v ∨ new v → v ∈ p.jobs ∨ new v :=
    Or.imp (fun hu => mem_jobs_iff.mpr (Or.inl hu)) id
  rcases mem_jobs_iff.mp hv with hu | ⟨n, hr⟩
  · exact hunbegun (h.unbegun v hu)
  · exact (h.runs n v hr).elim (fun hr => Or.inl hr.mem_jobs) hunbegun

/-- the crew but for one worker, who gives up its job or takes one that was unbegun -/
theorem rounds_cons {w u : Worker J} {rest workers : List (Worker J)}
    (hw : p.workers.Perm (w :: rest)) (hcrew : workers.Perm (u :: rest))
    (hu : ∀ v, u.phase.job? = some v → p.Unbegun v) :
    ∀ e ∈ rounds workers, e ∈ rounds p.workers ∨ ∀ v, e.2.job? = some v → p.Unbegun v := by
  intro e he
  obtain ⟨t, ht, rfl⟩ := (mem_rounds_iff _ _).mp he
  rcases List.mem_cons.mp (hcrew.subset ht) with rfl | hrest
  · exact Or.inr hu
  · exact Or.inl (mem_rounds (hw.symm.subset (List.mem_cons_of_mem w hrest)))

/-- **A move begins no job but an unbegun one.** -/
theorem Moved.onward {w : Worker J} {rest : List (Worker J)} {m : Move}
    (hw : p.workers.Perm (w :: rest)) (hm : Moved p w rest m p') : Onward new p p' := by
  have hself : (w.number, w.phase) ∈ rounds p.workers :=
    mem_rounds (hw.symm.subset List.mem_cons_self)
  have hqueue : ∀ v ∈ p.queue, p.Unbegun v ∨ new v := fun v hv => Or.inl (Or.inl hv)
  have hrest : ∀ {workers : List (Worker J)}, workers.Perm rest → ∀ e ∈ rounds workers,
      e ∈ rounds p.workers ∨ ∀ v, e.2.job? = some v → p.Unbegun v := by
    intro workers hcrew e he
    obtain ⟨t, ht, rfl⟩ := (mem_rounds_iff _ _).mp he
    exact Or.inl (mem_rounds (hw.symm.subset (List.mem_cons_of_mem w (hcrew.subset ht))))
  cases hm with
  | @receive job queue workers phase first crew =>
    refine .of_rounds (fun v hv => hqueue v ?_) (rounds_cons hw crew fun v hv => ?_)
    · rw [first]
      exact List.mem_cons_of_mem job hv
    · cases hv
      rw [Unbegun, first]
      exact Or.inl List.mem_cons_self
  | @engage job workers phase crew =>
    refine .of_rounds hqueue (rounds_cons hw crew fun v hv => ?_)
    cases hv
    rw [phase] at hself
    exact Or.inr ⟨w.number, Or.inl hself⟩
  | @run job workers phase goes crew =>
    refine .of_rounds hqueue (rounds_cons hw crew fun v hv => ?_)
    cases hv
    rw [phase] at hself
    exact Or.inr ⟨w.number, Or.inr hself⟩
  | skip phase stopped crew => exact .of_rounds hqueue (rounds_cons hw crew nofun)
  | rest phase crew => exact .of_rounds hqueue (rounds_cons hw crew nofun)
  | leave phase finished crew => exact .of_rounds hqueue (rounds_cons hw crew nofun)
  | retire phase crew => exact .of_rounds hqueue (hrest crew)
  | expire phase above empty crew => exact .of_rounds hqueue (hrest crew)

theorem onward_step? {m : Move} (h : p.Sound) (hs : p.step? n m = some p') : Onward new p p' := by
  obtain ⟨w, -, hw, hm⟩ := moved_of_step? h.nodup hs
  exact hm.onward hw

theorem onward_elapse (h : p.Sound) (ms : Nat) : Onward new p (p.elapse ms) := by
  refine (elapse_induct (P := fun q => q.Sound ∧ Onward new p q) ?_ ?_ ⟨h, .refl p⟩ ms).2
  · rintro q n q' ⟨hq, hon⟩ hstep
    exact ⟨hq.step? hstep, hon.trans (onward_step? hq hstep)⟩
  · rintro q workers now ⟨hq, hon⟩ hr
    refine ⟨hq.of_rounds hr now, hon.trans (.of_rounds (fun v hv => Or.inl (Or.inl hv)) ?_)⟩
    exact fun e he => Or.inl (hr.subset he)

theorem Submitted.onward {job : J} {denied : Bool} {outcome : Except Fault Unit}
    (hs : Submitted p job denied outcome p') : Onward (· = job) p p' := by
  have hqueue : ∀ v ∈ p.queue ++ [job], p.Unbegun v ∨ v = job := by
    intro v hv
    exact (List.mem_append.mp hv).imp Or.inl List.mem_singleton.mp
  cases hs with
  | refused closed => exact .refl p
  | queued accepts busy => exact .of_rounds hqueue fun e he => Or.inl he
  | broken accepts | unmanned accepts denies => exact .of_rounds hqueue fun e he => Or.inl he
  | spawned accepts =>
    refine .of_rounds hqueue fun e he => ?_
    obtain ⟨w, hw, rfl⟩ := (mem_rounds_iff _ _).mp he
    rcases List.mem_append.mp hw with hw | hw
    · exact Or.inl (mem_rounds hw)
    · rw [List.mem_singleton.mp hw]
      exact Or.inr nofun

theorem onward_close (p : Pool J) : Onward new p p.close :=
  .of_rounds (fun _ hv => Or.inl (Or.inl hv)) fun _ he => Or.inl he

theorem onward_cancel (p : Pool J) : Onward new p p.cancel.2 := by
  unfold Pool.cancel
  split
  · exact .of_rounds nofun fun _ he => Or.inl he
  · exact .refl p

/-! ## the job that runs -/

/-- a worker that goes into a phase is the only one that does something -/
theorem rounds_setPhase {phase : Phase J} {e : Nat × Phase J}
    (he : e ∈ rounds (p.setPhase n phase).workers) : e ∈ rounds p.workers ∨ e = (n, phase) := by
  obtain ⟨u, hu, rfl⟩ := (mem_rounds_iff _ _).mp he
  obtain ⟨w, hw, rfl⟩ := List.mem_map.mp hu
  split
  · rename_i hn
    rw [hn]
    exact Or.inr rfl
  · exact Or.inl (mem_rounds hw)

theorem onward_finish (p : Pool J) (n : Nat) : Onward new p (p.finish n) := by
  refine .of_rounds (fun v hv => Or.inl (Or.inl hv)) fun e he => ?_
  refine (rounds_setPhase he).imp id ?_
  rintro rfl
  exact nofun

/-- **A running job goes on as another one** at its worker alone. -/
theorem runs_proceed (h : (p.proceed n v').Runs m v) : p.Runs m v ∨ m = n ∧ v = v' := by
  refine (rounds_setPhase h).imp id fun he => ?_
  cases he
  exact ⟨rfl, rfl⟩

theorem unbegun_proceed (h : (p.proceed n v').Unbegun v) : p.Unbegun v := by
  rcases h with hv | ⟨m, hv | hv⟩
  · exact Or.inl hv
  · exact Or.inr ⟨m, Or.inl ((rounds_setPhase hv).resolve_right nofun)⟩
  · exact Or.inr ⟨m, Or.inr ((rounds_setPhase hv).resolve_right nofun)⟩

theorem jobs_proceed (h : v ∈ (p.proceed n v').jobs) : v ∈ p.jobs ∨ v = v' := by
  rcases mem_jobs_iff.mp h with hu | ⟨m, hr⟩
  · exact Or.inl (mem_jobs_iff.mpr (Or.inl (unbegun_proceed hu)))
  · exact (runs_proceed hr).imp Runs.mem_jobs And.right

theorem Runs.proceed (h : p.Runs n v) (v' : J) : (p.proceed n v').Runs n v' := by
  obtain ⟨w, hw, he⟩ := (mem_rounds_iff _ _).mp h
  refine (mem_rounds_iff _ _).mpr ⟨_, List.mem_map_of_mem hw, ?_⟩
  rw [if_pos (Prod.mk.inj he).1, (Prod.mk.inj he).1]

/-! ## the job in hand -/

/-- the worker with a number has a job in hand, begun or not -/
def InHand (p : Pool J) (n : Nat) (v : J) : Prop :=
  ∃ phase : Phase J, (n, phase) ∈ rounds p.workers ∧ phase.job? = some v

theorem Runs.inHand (h : p.Runs n v) : p.InHand n v := ⟨.running v, h, rfl⟩

theorem InHand.of_rounds (h : p'.InHand n v) (hr : rounds p'.workers ⊆ rounds p.workers) :
    p.InHand n v := by
  obtain ⟨phase, he, hjob⟩ := h
  exact ⟨phase, hr he, hjob⟩

/-- **A worker comes by a job** by taking it off the queue. -/
theorem inHand_of_step? {move : Move} (hp : p.Sound) (hs : p.step? m move = some p')
    (h : p'.InHand n v) :
    p.InHand n v ∨ move = .receive ∧ n = m ∧ p.queue.head? = some v := by
  obtain ⟨w, rfl, hw, hm⟩ := moved_of_step? hp.nodup hs
  obtain ⟨phase, he, hjob⟩ := h
  obtain ⟨u, hu, he⟩ := (mem_rounds_iff _ _).mp he
  cases he
  have hself : w ∈ p.workers := hw.symm.subset List.mem_cons_self
  have hrest : u ∈ p.others w.number → p.InHand u.number v := fun hu =>
    ⟨u.phase, mem_rounds (hw.symm.subset (List.mem_cons_of_mem w hu)), hjob⟩
  -- the worker that moves has the job of its new phase in hand, or none
  have hmoved : ∀ {workers : List (Worker J)} {w' : Worker J},
      workers.Perm (w' :: p.others w.number) → u ∈ workers →
      (w'.phase.job? = some v → p.InHand w'.number v ∨
        move = .receive ∧ w'.number = w.number ∧ p.queue.head? = some v) →
      p.InHand u.number v ∨ move = .receive ∧ u.number = w.number ∧ p.queue.head? = some v := by
    intro workers w' hcrew hu hw'
    rcases List.mem_cons.mp (hcrew.subset hu) with rfl | hu
    · exact hw' hjob
    · exact Or.inl (hrest hu)
  have hkept : w.phase.job? = some v → p.InHand w.number v := fun hj => ⟨_, mem_rounds hself, hj⟩
  cases hm with
  | receive phase first crew =>
    refine hmoved crew hu fun hj => Or.inr ⟨rfl, rfl, ?_⟩
    rw [first]
    exact hj
  | engage phase crew => exact hmoved crew hu fun hj => Or.inl (hkept (by rw [phase]; exact hj))
  | run phase goes crew => exact hmoved crew hu fun hj => Or.inl (hkept (by rw [phase]; exact hj))
  | skip phase stopped crew => exact hmoved crew hu nofun
  | rest phase crew => exact hmoved crew hu nofun
  | leave phase finished crew => exact hmoved crew hu nofun
  | retire phase crew => exact Or.inl (hrest (crew.subset hu))
  | expire phase above empty crew => exact Or.inl (hrest (crew.subset hu))

theorem inHand_elapse (hp : p.Sound) {ms : Nat} (h : (p.elapse ms).InHand n v) : p.InHand n v := by
  refine (elapse_induct (P := fun q => q.Sound ∧ (q.InHand n v → p.InHand n v)) ?_ ?_ ⟨hp, id⟩ ms).2
    h
  · rintro q m q' ⟨hq, hback⟩ hstep
    refine ⟨hq.step? hstep, fun hv => hback ?_⟩
    exact (inHand_of_step? hq hstep hv).resolve_right fun hreceive => nomatch hreceive.1
  · rintro q workers now ⟨hq, hback⟩ hr
    exact ⟨hq.of_rounds hr now, fun hv => hback (hv.of_rounds hr.subset)⟩

theorem Submitted.inHand {job : J} {denied : Bool} {outcome : Except Fault Unit}
    (hs : Submitted p job denied outcome p') (h : p'.InHand n v) : p.InHand n v := by
  cases hs with
  | spawned accepts =>
    obtain ⟨phase, he, hjob⟩ := h
    obtain ⟨w, hw, he⟩ := (mem_rounds_iff _ _).mp he
    cases he
    rcases List.mem_append.mp hw with hw | hw
    · exact ⟨w.phase, mem_rounds hw, hjob⟩
    · rw [List.mem_singleton.mp hw] at hjob
      cases hjob
  | _ => exact h

theorem inHand_cancel (h : p.cancel.2.InHand n v) : p.InHand n v := by
  unfold Pool.cancel at h
  split at h
  · exact h
  · exact h

theorem inHand_proceed (h : (p.proceed m v').InHand n v) : p.InHand n v ∨ n = m ∧ v = v' := by
  obtain ⟨phase, he, hjob⟩ := h
  rcases rounds_setPhase he with hold | hnew
  · exact Or.inl ⟨phase, hold, hjob⟩
  · cases hnew
    cases hjob
    exact Or.inr ⟨rfl, rfl⟩

/-- a worker whose job has ended has none, and no other worker has another one than before -/
theorem inHand_finish (h : (p.finish m).InHand n v) : n ≠ m ∧ p.InHand n v := by
  obtain ⟨phase, he, hjob⟩ := h
  obtain ⟨u, hu, he⟩ := (mem_rounds_iff _ _).mp he
  obtain ⟨w, hw, rfl⟩ := List.mem_map.mp hu
  split at he
  · cases he
    cases hjob
  · rename_i hne
    cases he
    exact ⟨hne, w.phase, mem_rounds hw, hjob⟩

end Pool
end Precinct
