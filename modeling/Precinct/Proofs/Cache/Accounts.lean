import Mathlib
import Precinct.Proofs.Cache.Backlog
import Precinct.Proofs.Cache.Epochs
import Precinct.Proofs.Cache.Tally

/-!
# Counts that account for what happened

* `Step.loads`         a step loads one sheet at most, and counts it, or it counts no sheet;
* `Crowd.Stops`        a worker finds its pool cancelled and stops a survey with columns left;
* `Step.inHand`        what becomes of the job that a worker has in hand;
* `IsRun.taken`        so it took it off the queue, and has had some job ever since;
* `Crowd.Accounted`    what there is to say of all six counts;
* `accounted_of_run`   **the counts of a cache account for every event**, at every moment of every run,
                       and no job is counted as cancelled twice.

A sheet that is loaded stays so, whether its column is known any longer or not, so the sheets counted
are those that are loaded.  A job is known by the moment at which a worker took it off the queue.
-/

namespace Precinct

/-! ## sheets -/

section
variable {σ : Type} [RegionStore σ] {s s' : Scene σ} {c c' : Cache σ} {k n : Nat} {v : Survey}
  {r : SurveyResult}

/-- one sheet is loaded, and that is counted -/
def Cache.Loads (c c' : Cache σ) (i : Nat) : Prop :=
  (c.sheet i).isLoaded = false ∧ c'.counters.columnsLoaded = c.counters.columnsLoaded + 1 ∧
    ∀ j, (c'.sheet j).isLoaded = (decide (j = i) || (c.sheet j).isLoaded)

/-- no sheet is loaded or unloaded, and none is counted -/
def Cache.SameLoaded (c c' : Cache σ) : Prop :=
  c'.counters.columnsLoaded = c.counters.columnsLoaded ∧
    ∀ j, (c'.sheet j).isLoaded = (c.sheet j).isLoaded

/-- a survey that finds the sheet loaded when it comes to publish leaves it, and counts nothing -/
theorem Cache.Surveyed.loads (h : Cache.Surveyed c k n v r c') :
    c.SameLoaded c' ∨ ∃ i, c.Loads c' i := by
  cases h with
  | @published column i regions head phase =>
    have hsheet := c.sheet_publishSheet i
    cases hi : (c.sheet i).regions with
    | none =>
      refine Or.inr ⟨i, by rw [Sheet.isLoaded, hi]; rfl, ?_, fun j => ?_⟩
      · rw [counters_publishSheet hi]
      · rw [hsheet]
        by_cases hj : j = i
        · simp [hj, Sheet.isLoaded, Sheet.regions_publish]
        · simp [hj]
    | some old =>
      refine Or.inl ⟨?_, fun j => ?_⟩
      · rw [Cache.publishSheet, Sheet.publish, hi]
        rfl
      · rw [hsheet]
        by_cases hj : j = i
        · simp [hj, Sheet.isLoaded, Sheet.regions_publish, hi]
        · simp [hj]
  | _ => exact Or.inl ⟨rfl, fun _ => rfl⟩

omit [RegionStore σ] in
theorem Cache.sameLoaded_insertAllMissing (h : Filed c) (columns : List Column) :
    c.SameLoaded (c.insertAllMissing columns).2 := by
  refine ⟨congrArg Counters.columnsLoaded (c.counters_insertAllMissing columns), fun j => ?_⟩
  refine (Cache.insertAllMissing_induct (P := fun d => Filed d ∧
    (d.sheet j).isLoaded = (c.sheet j).isLoaded) (fun d column hd => ?_) ⟨h, rfl⟩ columns).2
  refine ⟨hd.1.insertMissing column, ?_⟩
  cases hk : d.sheetOf? column with
  | some i =>
    rw [Cache.insertMissing_of_known (by rw [hk]; rfl)]
    exact hd.2
  | none =>
    rw [Cache.insertMissing_of_missing hk, ← hd.2]
    -- the new sheet has a number that no sheet had
    show ((d.sheets.insert _ _).getD j default).isLoaded = _
    rw [Cache.getD_insert_sheet]
    split
    · rename_i hj
      have hmissing : j ∉ d.sheets := by
        rw [hd.1.numbered, hj]
        exact lt_irrefl _
      rw [Cache.sheet, Std.ExtTreeMap.getD_eq_fallback hmissing]
      rfl
    · rfl

/-- **A step loads one sheet at most**, and counts it, or none. -/
theorem Step.loads (hs : Step s s') (hc : Crews s) (hf : Filed s.cache) :
    s.cache.SameLoaded s'.cache ∨ ∃ i, s.cache.Loads s'.cache i := by
  cases hs with
  | @renew known listed rest =>
    exact Or.inl (Cache.sameLoaded_insertAllMissing (hf.turn hc.current) known)
  | warm columns rest => exact Or.inl (Cache.sameLoaded_insertAllMissing hf columns)
  | @scheduled renewal doing => cases renewal <;> exact Or.inl ⟨rfl, fun _ => rfl⟩
  | ask p rest =>
    obtain ⟨hot, own, hcounters, -⟩ := s.cache.counters_resolve p.column
    obtain ⟨-, -, -, -, hsheets, -⟩ := (s.cache.resolved p.column).frame
    refine Or.inl ⟨?_, fun j => congrArg Sheet.isLoaded (Cache.sheet_congr hsheets j)⟩
    show (s.cache.resolve p.column).2.counters.columnsLoaded = _
    rw [hcounters]
  | @answer p found doing => cases found <;> exact Or.inl ⟨rfl, fun _ => rfl⟩
  | @dismissed pools stopped doing => cases stopped <;> exact Or.inl ⟨rfl, fun _ => rfl⟩
  | work makes =>
    rcases (Cache.worked_of_step? makes).cases with ⟨m, p, -, rfl⟩ | ⟨v, r, d, -, hdoes, rfl⟩
    · exact Or.inl ⟨rfl, fun _ => rfl⟩
    · exact hdoes.loads
  | _ => exact Or.inl ⟨rfl, fun _ => rfl⟩

end

namespace Crowd
variable {σ : Type} [RegionStore σ] {store : σ} {settings : Settings} {run : Nat → Crowd σ}

/-- the sheets that were loaded before a moment, by number: also those of columns that are known no
longer -/
def loadedBy (run : Nat → Crowd σ) (t : Nat) : Set Nat :=
  {i | ∃ u < t, ((run u).cache.sheet i).isLoaded = false ∧
    ((run (u + 1)).cache.sheet i).isLoaded = true}

omit [RegionStore σ] in
theorem mem_loadedBy_succ (t i : Nat) : i ∈ loadedBy run (t + 1) ↔ i ∈ loadedBy run t ∨
    ((run t).cache.sheet i).isLoaded = false ∧ ((run (t + 1)).cache.sheet i).isLoaded = true := by
  simp only [loadedBy, Set.mem_ofPred_eq, Nat.lt_succ_iff_lt_or_eq, or_and_right, exists_or,
    exists_eq_left]

/-- **Sheets that were loaded stay so, and each was counted once.** -/
theorem IsRun.columnsLoaded (h : IsRun (.ofSettings store settings) run) (t : Nat) :
    (∀ i, i ∈ loadedBy run t ↔ ((run t).cache.sheet i).isLoaded = true) ∧
      (loadedBy run t).Finite ∧
      (run t).cache.counters.columnsLoaded = (loadedBy run t).ncard := by
  induction t with
  | zero =>
    have hnone : loadedBy run 0 = ∅ := by simp [loadedBy]
    rw [hnone, h.start]
    refine ⟨fun i => ⟨nofun, fun hi => ?_⟩, Set.finite_empty, ?_⟩
    · exact absurd hi Bool.false_ne_true
    · rw [Set.ncard_empty]
      rfl
  | succ t ih =>
    obtain ⟨hloaded, hfinite, hcount⟩ := ih
    have hstep : (run t).cache.SameLoaded (run (t + 1)).cache ∨
        ∃ i, (run t).cache.Loads (run (t + 1)).cache i := by
      rcases h.acts t with he | ⟨n, s, makes, he⟩
      · rw [he]
        exact Or.inl ⟨rfl, fun _ => rfl⟩
      · rw [he]
        exact makes.loads ((h.orderly t).crews n) (h.orderly t).filed
    rcases hstep with ⟨hcounted, hsame⟩ | ⟨i, hi, hcounted, hloads⟩
    · have hset : loadedBy run (t + 1) = loadedBy run t := by
        ext j
        rw [mem_loadedBy_succ, hsame]
        simp
      rw [hset]
      exact ⟨fun j => by rw [hsame]; exact hloaded j, hfinite, hcounted.trans hcount⟩
    · have hset : loadedBy run (t + 1) = insert i (loadedBy run t) := by
        ext j
        rw [mem_loadedBy_succ, hloads, Set.mem_insert_iff, hloaded]
        by_cases hj : j = i
        · simp [hj, hi]
        · simp [hj]
      have hnew : i ∉ loadedBy run t := by
        rw [hloaded, hi]
        exact Bool.false_ne_true
      rw [hset]
      refine ⟨fun j => ?_, hfinite.insert i, ?_⟩
      · rw [hloads, Set.mem_insert_iff, hloaded]
        simp
      · rw [hcounted, hcount, Set.ncard_insert_of_notMem hnew hfinite]

end Crowd

/-! ## surveys that stop early -/

section
variable {σ : Type} [RegionStore σ] {s s' : Scene σ} {c c' : Cache σ} {k n : Nat} {v v' : Survey}
  {r : SurveyResult}

theorem Cache.Surveyed.columns (h : Cache.Surveyed c k n v (.goesOn v') c') :
    v'.columns <:+ v.columns := by
  cases h with
  | missing head phase none => exact List.tail_suffix _
  | loaded head phase yes => exact List.tail_suffix _
  | published head phase => exact List.tail_suffix _
  | _ => exact List.suffix_refl _

/-- a survey is counted as cancelled when it finds its pool cancelled, with columns left -/
theorem Cache.Surveyed.stops (h : Cache.Surveyed c k n v r c') :
    c'.counters.tasksCancelled = c.counters.tasksCancelled ∧
        ¬(v.columns ≠ [] ∧ v.phase = .checking ∧ (c.pool k).cancelled = true) ∨
      c'.counters.tasksCancelled = c.counters.tasksCancelled + 1 ∧
        (v.columns ≠ [] ∧ v.phase = .checking ∧ (c.pool k).cancelled = true) ∧ r = .ends := by
  cases h with
  | empty none => exact Or.inl ⟨rfl, fun hv => hv.1 none⟩
  | stopped head phase stop =>
    refine Or.inr ⟨rfl, ⟨?_, phase, stop⟩, rfl⟩
    intro hnil
    rw [hnil] at head
    cases head
  | checked head phase goes =>
    refine Or.inl ⟨rfl, fun hv => ?_⟩
    rw [goes] at hv
    exact Bool.false_ne_true hv.2.2
  | @published column i regions head phase =>
    refine Or.inl ⟨?_, fun hv => ?_⟩
    · rw [c.counters_publishSheet_eq i regions]
    · rw [phase] at hv
      cases hv.2.1
  | _ head phase =>
    refine Or.inl ⟨rfl, fun hv => ?_⟩
    rw [phase] at hv
    cases hv.2.1

theorem Cache.surveyed_of_step? (hp : (c.pool k).Sound) (hr : (c.pool k).Runs n v)
    (h : c.step? k n .survey = some c') :
    ∃ r d, Cache.Surveyed c k n v r d ∧ c' = d.setPool k (r.pool (c.pool k) n) := by
  cases Cache.worked_of_step? h with
  | goesOn worker phase does =>
    obtain rfl := (Pool.runs_of_worker? worker phase).eq hp hr
    exact ⟨_, _, does, rfl⟩
  | ends worker phase does =>
    obtain rfl := (Pool.runs_of_worker? worker phase).eq hp hr
    exact ⟨_, _, does, rfl⟩
  | breaksOff worker phase does lost =>
    obtain rfl := (Pool.runs_of_worker? worker phase).eq hp hr
    exact ⟨_, _, does, rfl⟩

theorem Cache.stops_of_step? {w : WorkerStep} (h : c.step? k n w = some c') :
    c'.counters.tasksCancelled = c.counters.tasksCancelled ∨
      w = .survey ∧ ∃ v, (c.pool k).Runs n v ∧ v.columns ≠ [] ∧ v.phase = .checking ∧
        (c.pool k).cancelled = true := by
  have hruns : ∀ {u : Worker Survey} {v : Survey}, (c.pool k).worker? n = some u →
      u.phase = .running v → (c.pool k).Runs n v := Pool.runs_of_worker?
  cases Cache.worked_of_step? h with
  | moved makes => exact Or.inl rfl
  | goesOn worker phase does =>
    exact does.stops.imp And.left fun hstop => ⟨rfl, _, hruns worker phase, hstop.2.1⟩
  | ends worker phase does =>
    exact does.stops.imp And.left fun hstop => ⟨rfl, _, hruns worker phase, hstop.2.1⟩
  | breaksOff worker phase does lost =>
    exact does.stops.imp And.left fun hstop => ⟨rfl, _, hruns worker phase, hstop.2.1⟩

/-- whoever counts a cancelled survey is a worker -/
theorem Step.tasksCancelled (hs : Step s s') :
    s'.cache.counters.tasksCancelled = s.cache.counters.tasksCancelled ∨
      ∃ k n w, s.cache.step? k n w = some s'.cache := by
  cases hs.counted with
  | same counters => exact Or.inl (by rw [counters])
  | @asked p found doing cache =>
    obtain ⟨hot, own, hcounters, -⟩ := s.cache.counters_resolve p.column
    exact Or.inl (by rw [cache, hcounters])
  | fellBack doing counters => exact Or.inl (by rw [counters])
  | renewed counters => exact Or.inl (by rw [counters])
  | worked makes => exact Or.inr ⟨_, _, _, makes⟩

/-! ## jobs in hand -/

section
omit [RegionStore σ]

theorem Cache.inHand_freshPool (h : (c.freshPool.pool k).InHand n v) : (c.pool k).InHand n v := by
  rw [Cache.pool_freshPool] at h
  split at h
  · obtain ⟨phase, he, -⟩ := h
    exact absurd he List.not_mem_nil
  · exact h

theorem Cache.inHand_turn (hc : c.current < c.pools.size) (h : (c.turn.2.pool k).InHand n v) :
    (c.pool k).InHand n v := by
  obtain ⟨now, hpool⟩ := Cache.pool_turn hc k
  rw [hpool] at h
  split at h
  · obtain ⟨phase, he, -⟩ := h
    exact absurd he List.not_mem_nil
  · split at h
    · rename_i hk
      rw [hk]
      exact Pool.inHand_cancel h
    · exact h

/-- it was in hand before, or it is in the pool that came into another state -/
theorem Cache.inHand_setPool {j : Nat} {p : Pool Survey} (hd : c'.pools = c.pools)
    (h : ((c'.setPool j p).pool k).InHand n v) :
    (c.pool k).InHand n v ∨ k = j ∧ (c'.setPool j p).pool k = p ∧ p.InHand n v := by
  rw [Cache.pool_setPool_of_pools hd] at h ⊢
  split
  · rename_i hj
    rw [if_pos hj] at h
    exact Or.inr ⟨hj.1, rfl, h⟩
  · rename_i hj
    rw [if_neg hj] at h
    exact Or.inl h

theorem Cache.inHand_elapse (hp : (c.pool k).Sound) {ms : Nat}
    (h : ((c.elapse ms).pool k).InHand n v) : (c.pool k).InHand n v := by
  rcases c.pool_elapse ms k with he | he
  · rwa [he] at h
  · rw [he] at h
    exact Pool.inHand_elapse hp h

end

/-- a job in hand was there before, was taken off the queue, or is what is left of the survey that made a
step -/
def Cache.Handed (c c' : Cache σ) (k n : Nat) (v : Survey) : Prop :=
  (c.pool k).InHand n v ∨
    (c.pool k).step? n .receive = some (c'.pool k) ∧ (c.pool k).queue.head? = some v ∨
    ∃ v₀, (c.pool k).InHand n v₀ ∧ v.epoch = v₀.epoch ∧ v.columns <:+ v₀.columns

theorem Cache.Worked.inHand {j m : Nat} {w : WorkerStep} (h : Cache.Worked c j m w c')
    (hp : (c.pool k).Sound) (hv : (c'.pool k).InHand n v) : c.Handed c' k n v := by
  rcases h.cases with ⟨move, p, hmove, rfl⟩ | ⟨u, r, d, hruns, hdoes, rfl⟩
  · rcases Cache.inHand_setPool rfl hv with hold | ⟨rfl, hafter, hp'⟩
    · exact Or.inl hold
    · rcases Pool.inHand_of_step? hp hmove hp' with hold | ⟨rfl, rfl, hfirst⟩
      · exact Or.inl hold
      · exact Or.inr (Or.inl ⟨hmove.trans (congrArg some hafter.symm), hfirst⟩)
  · rcases Cache.inHand_setPool hdoes.pools hv with hold | ⟨rfl, -, hp'⟩
    · exact Or.inl hold
    · cases r with
      | goesOn u' =>
        rcases Pool.inHand_proceed hp' with hold | ⟨rfl, rfl⟩
        · exact Or.inl hold
        · exact Or.inr (Or.inr ⟨u, hruns.inHand, hdoes.sheet?.1, hdoes.columns⟩)
      | ends => exact Or.inl (Pool.inHand_finish hp').2
      | breaksOff => exact Or.inl (Pool.inHand_finish hp').2

/-- **Where the job comes from that a worker has in hand.** -/
theorem Step.inHand (hs : Step s s') (hc : Crews s) (hv : (s'.cache.pool k).InHand n v) :
    s.cache.Handed s'.cache k n v := by
  have hsame : ∀ {d : Cache σ}, d.pools = s.cache.pools → (d.pool k).InHand n v →
      (s.cache.pool k).InHand n v := by
    intro d hd hv
    rwa [Cache.pool_congr hd] at hv
  have hsubmitted : ∀ {batch : List Column} {denied : Bool} {outcome : Except Fault Unit}
      {p : Pool Survey}, (s.cache.pool s.cache.current).submit
        { epoch := s.cache.epoch, columns := batch } denied = (outcome, p) →
      ((s.cache.setPool s.cache.current p).pool k).InHand n v → (s.cache.pool k).InHand n v := by
    intro batch denied outcome p hgives hv
    have hsub := Pool.submitted (s.cache.pool s.cache.current) ⟨s.cache.epoch, batch, .checking⟩ denied
    rw [hgives] at hsub
    rcases Cache.inHand_setPool rfl hv with hold | ⟨rfl, -, hp⟩
    · exact hold
    · exact hsub.inHand hp
  cases hs with
  | @renew known listed rest =>
    obtain ⟨-, -, -, hp, -⟩ := s.cache.turn.2.insertAllMissing_frame known
    rw [Cache.restart, Cache.pool_congr hp] at hv
    exact Or.inl (Cache.inHand_turn hc.current hv)
  | warm columns rest =>
    obtain ⟨-, -, -, hp, -⟩ := s.cache.insertAllMissing_frame columns
    exact Or.inl (hsame hp hv)
  | dropAll rest => exact Or.inl (Cache.inHand_turn hc.current hv)
  | submit doing taken => exact Or.inl (hsubmitted taken hv)
  | breakOff doing refused => exact Or.inl (hsubmitted refused hv)
  | @scheduled renewal doing => cases renewal <;> exact Or.inl hv
  | ask p rest =>
    obtain ⟨-, -, -, -, -, hp, -⟩ := (s.cache.resolved p.column).frame
    exact Or.inl (hsame hp hv)
  | @answer p found doing =>
    obtain ⟨-, -, -, -, hp, -⟩ := s.cache.answer_frame p found
    exact Or.inl (hsame hp hv)
  | swap rest => exact Or.inl (Cache.inHand_freshPool hv)
  | @close j doing =>
    have hclosed : ((s.cache.setPool j (s.cache.pool j).close).pool k).InHand n v := hv
    rcases Cache.inHand_setPool rfl hclosed with hold | ⟨rfl, -, hp⟩
    · exact Or.inl hold
    · exact Or.inl hp
  | dismiss rest => exact Or.inl (Cache.inHand_turn hc.current hv)
  | @dismissed pools stopped doing => cases stopped <;> exact Or.inl hv
  | work makes => exact (Cache.worked_of_step? makes).inHand (hc.sound k) hv
  | elapse ms => exact Or.inl (Cache.inHand_elapse (hc.sound k) hv)
  | _ => exact Or.inl hv

end

namespace Crowd
variable {σ : Type} [RegionStore σ] {store : σ} {settings : Settings} {run : Nat → Crowd σ}

/-- a worker that runs a survey with columns left finds its pool cancelled, and stops it -/
structure Stops (run : Nat → Crowd σ) (t k n : Nat) (v : Survey) : Prop where
  runs : ((run t).cache.pool k).Runs n v
  left : v.columns ≠ []
  looks : v.phase = .checking
  cancelled : ((run t).cache.pool k).cancelled = true
  steps : (run t).cache.step? k n .survey = some (run (t + 1)).cache

open Classical in
/-- how many surveys were stopped so before a moment -/
noncomputable def stopped (run : Nat → Crowd σ) (t : Nat) : Nat :=
  Nat.count (fun u => ∃ k n v, Stops run u k n v) t

/-- a worker takes a job off the queue -/
structure Receives (run : Nat → Crowd σ) (t k n : Nat) (v : Survey) : Prop where
  first : ((run t).cache.pool k).queue.head? = some v
  moves : ((run t).cache.pool k).step? n .receive = some ((run (t + 1)).cache.pool k)

/-- what a worker took off the queue at one moment it stops at a later one, and it had some job in hand
all the time between -/
structure ReceivesAndStops (run : Nat → Crowd σ) (r t k n : Nat) (v₀ v : Survey) : Prop where
  before : r < t
  receives : Receives run r k n v₀
  stops : Stops run t k n v
  /-- it is what is left of the job -/
  epoch : v.epoch = v₀.epoch
  columns : v.columns <:+ v₀.columns
  meanwhile : ∀ m, r < m → m ≤ t → ∃ v', ((run m).cache.pool k).InHand n v'

/-- a worker that stops a survey is counted and has no job any more -/
theorem Stops.after {t k n : Nat} {v : Survey} (h : Stops run t k n v)
    (hp : ((run t).cache.pool k).Sound) :
    (run (t + 1)).cache.counters.tasksCancelled = (run t).cache.counters.tasksCancelled + 1 ∧
      ∀ v', ¬((run (t + 1)).cache.pool k).InHand n v' := by
  obtain ⟨r, d, hdoes, hd⟩ := Cache.surveyed_of_step? hp h.runs h.steps
  rcases hdoes.stops with ⟨-, hno⟩ | ⟨hcounted, -, rfl⟩
  · exact absurd ⟨h.left, h.looks, h.cancelled⟩ hno
  · refine ⟨by rw [hd]; exact hcounted, fun v' hv' => ?_⟩
    have hsize : k < (run t).cache.pools.size := by
      refine Cache.lt_size_of_pool fun hdefault => ?_
      have hr := h.runs
      rw [hdefault] at hr
      exact absurd hr List.not_mem_nil
    rw [hd, Cache.pool_setPool_of_pools hdoes.pools, if_pos ⟨rfl, hsize⟩] at hv'
    exact (Pool.inHand_finish hv').1 rfl

namespace IsRun
variable (h : IsRun (.ofSettings store settings) run)
include h

/-- **A cancelled survey is counted** when a worker stops it with columns left, and only then. -/
theorem tasksCancelled (t : Nat) :
    (run t).cache.counters.tasksCancelled = stopped run t := by
  classical
  induction t with
  | zero =>
    rw [h.start, stopped, Nat.count_zero]
    rfl
  | succ t ih =>
    have hsound : ∀ k, ((run t).cache.pool k).Sound := ((h.orderly t).crews 0).sound
    rw [stopped] at ih ⊢
    rw [Nat.count_succ, ← ih]
    by_cases hstops : ∃ k n v, Stops run t k n v
    · rw [if_pos hstops]
      obtain ⟨k, n, v, hv⟩ := hstops
      exact (hv.after (hsound k)).1
    · rw [if_neg hstops]
      rcases h.acts t with he | ⟨m, s, makes, he⟩
      · rw [he]
        rfl
      · have hcache : (run (t + 1)).cache = s.cache := by rw [he]; rfl
        rw [hcache]
        rcases makes.tasksCancelled with hsame | ⟨k, n, w, hw⟩
        · exact hsame
        · refine (Cache.stops_of_step? hw).resolve_right ?_
          rintro ⟨rfl, v, hruns, hleft, hlooks, hcancelled⟩
          exact hstops ⟨k, n, v, hruns, hleft, hlooks, hcancelled, by rw [hcache]; exact hw⟩

/-- **What a worker has in hand it took off the queue**, or it is what is left of that. -/
theorem taken {t k n : Nat} {v : Survey} (hv : ((run t).cache.pool k).InHand n v) :
    ∃ r < t, ∃ v₀, Receives run r k n v₀ ∧ v.epoch = v₀.epoch ∧ v.columns <:+ v₀.columns ∧
      ∀ m, r < m → m ≤ t → ∃ v', ((run m).cache.pool k).InHand n v' := by
  induction t generalizing v with
  | zero =>
    rw [h.start] at hv
    obtain ⟨phase, he, -⟩ := hv
    rcases Cache.pool_ofSettings store settings k with hpool | hpool
    · rw [hpool] at he
      exact absurd he List.not_mem_nil
    · rw [hpool] at he
      exact absurd he List.not_mem_nil
  | succ t ih =>
    have hlater : ∀ {v₁ : Survey}, ((run t).cache.pool k).InHand n v₁ → v.epoch = v₁.epoch →
        v.columns <:+ v₁.columns → ∃ r < t + 1, ∃ v₀, Receives run r k n v₀ ∧
          v.epoch = v₀.epoch ∧ v.columns <:+ v₀.columns ∧
          ∀ m, r < m → m ≤ t + 1 → ∃ v', ((run m).cache.pool k).InHand n v' := by
      intro v₁ hv₁ hepoch hcolumns
      obtain ⟨r, hr, v₀, hreceives, hepoch₀, hcolumns₀, hmeanwhile⟩ := ih hv₁
      refine ⟨r, Nat.lt_succ_of_lt hr, v₀, hreceives, hepoch.trans hepoch₀,
        hcolumns.trans hcolumns₀, fun m hrm hmt => ?_⟩
      rcases Nat.le_or_eq_of_le_succ hmt with hmt | rfl
      · exact hmeanwhile m hrm hmt
      · exact ⟨v, hv⟩
    rcases h.acts t with he | ⟨m, s, makes, he⟩
    · rw [he] at hv
      exact hlater hv rfl (List.suffix_refl _)
    · have hcache : (run (t + 1)).cache = s.cache := by rw [he]; rfl
      rw [hcache] at hv
      rcases makes.inHand ((h.orderly t).crews m) hv with hold | ⟨hmove, hfirst⟩ | ⟨v₁, hv₁, hleft⟩
      · exact hlater hold rfl (List.suffix_refl _)
      · refine ⟨t, Nat.lt_succ_self t, v, ⟨hfirst, ?_⟩, rfl, List.suffix_refl _, fun u htu hut => ?_⟩
        · rw [hcache]
          exact hmove
        · obtain rfl : u = t + 1 := by omega
          rw [hcache]
          exact ⟨v, hv⟩
      · exact hlater hv₁ hleft.1 hleft.2

end IsRun

/-- the counts of a cache account for what happened before a moment -/
structure Accounted (run : Nat → Crowd σ) (t : Nat) : Prop where
  /-- every query was answered by a sheet or by the store, but for those that the store has yet to
  answer -/
  queries : (run t).cache.counters.hotColumnHits + (run t).cache.counters.columnHits +
    (run t).cache.counters.storeFallbacks + (run t).engaged Doing.isUnanswered =
      begun Deed.asks run t
  /-- the queries that reached the store are those that fell back on it, and those past the cache -/
  forwarded : (run t).cache.store.containingCalls =
    (run t).cache.counters.storeFallbacks + begun Deed.consults run t
  /-- every change of the regions and every renewal renewed the cache, but for those under way -/
  renewals : (∀ u < t, ¬BreaksOff run u) →
    (run t).cache.counters.rebuilds + (run t).engaged Doing.isRenewing = begun Deed.renews run t
  columnsLoaded : (run t).cache.counters.columnsLoaded = (loadedBy run t).ncard
  tasksCancelled : (run t).cache.counters.tasksCancelled = stopped run t
  /-- nothing is under way while all clients are at rest -/
  rest : (∀ n, ((run t).doing n).AtRest) →
    (run t).engaged Doing.isUnanswered = 0 ∧ (run t).engaged Doing.isRenewing = 0

end Crowd

open Crowd in
/-- **The counts of a cache account for every event**, at every moment of every run. -/
theorem accounted_of_run {σ : Type} [RegionStore σ] {store : σ} {settings : Settings} {c : Cache σ}
    {run : Nat → Crowd σ} (hc : Cache.make store settings = .ok c) (h : IsRun c run) :
    (∀ t, Accounted run t) ∧
    -- a survey that is counted as cancelled is what is left of a job taken off the queue,
    (∀ t k n v, Stops run t k n v → ∃ r v₀, ReceivesAndStops run r t k n v₀ v) ∧
    -- and no job is counted twice
    ∀ r t t' k n v₀ v₀' v v', ReceivesAndStops run r t k n v₀ v →
      ReceivesAndStops run r t' k n v₀' v' → t = t' := by
  obtain ⟨-, rfl⟩ := Cache.make_eq_ok hc
  have hsound : ∀ t k, ((run t).cache.pool k).Sound := fun t => ((h.orderly t).crews 0).sound
  refine ⟨fun t => ⟨h.queries rfl t, h.forwarded rfl t, h.renewals rfl, (h.columnsLoaded t).2.2,
    h.tasksCancelled t, fun hrest => ⟨?_, ?_⟩⟩, fun t k n v hstops => ?_, ?_⟩
  · exact engaged_eq_zero fun n => (hrest n).isUnanswered
  · exact engaged_eq_zero fun n => (hrest n).isRenewing
  · obtain ⟨r, hr, v₀, hreceives, hepoch, hcolumns, hmeanwhile⟩ := h.taken hstops.runs.inHand
    exact ⟨r, v₀, hr, hreceives, hstops, hepoch, hcolumns, hmeanwhile⟩
  · -- a worker that stopped a survey has no job, and had one all the time until it stops the next
    have hlast : ∀ {r t t' k n : Nat} {v₀ v₀' v v' : Survey}, ReceivesAndStops run r t k n v₀ v →
        ReceivesAndStops run r t' k n v₀' v' → ¬t < t' := by
      intro r t t' k n v₀ v₀' v v' hr hr' hlt
      obtain ⟨u, hu⟩ := hr'.meanwhile (t + 1) (Nat.lt_succ_of_lt hr.before) hlt
      exact (hr.stops.after (hsound t k)).2 u hu
    intro r t t' k n v₀ v₀' v v' hr hr'
    exact le_antisymm (not_lt.mp (hlast hr' hr)) (not_lt.mp (hlast hr hr'))

/-- a survey had the sheet of the first of its two columns in hand when all columns were forgotten -/
def Cache.deserted : Cache Table :=
  (Cache.run 5 ((Cache.ofSettings {} {}).warmAll [⟨0, 0⟩, ⟨1, 0⟩]).2).dropAll.settle

/-- a region was added, and then the first column was surveyed again -/
def Cache.resettled : Cache Table := ((Cache.deserted.add .bar).2.warmAll [⟨0, 0⟩]).2.settle

/-- and two queries went to it, and one past it -/
def Cache.revisited : Cache Table :=
  (((Cache.resettled.regionsAt ⟨0, 3, 1⟩).2.regionsAt ⟨0, 3, 1⟩).2.regionsAt ⟨99, 3, 1⟩).2

theorem Scene.reach_revisited : ∃ regions, (Scene.start (Cache.ofSettings ({} : Table) {})).Reach
    { cache := Cache.revisited, doing := .answered ⟨99, 3, 1⟩ regions } := by
  have hrun : ∀ (n : Nat) (c : Cache Table), c.store.failing = false →
      (Scene.start c).Reach (.start (Cache.run n c)) := by
    intro n c hwell
    obtain ⟨lost, hgoes, hlost⟩ := goesOn_run n (.start c)
    rw [hlost hwell] at hgoes
    exact hgoes.reach
  have hsettle : ∀ c : Cache Table, c.store.failing = false →
      (Scene.start c).Reach (.start c.settle) := fun c => hrun c.work c
  have htold := reach_warmAll (s := .start (Cache.ofSettings ({} : Table) {})) [⟨0, 0⟩, ⟨1, 0⟩] trivial
  rw [after_start (by decide +kernel)] at htold
  have hbegun := htold.trans (hrun 5 _ (by decide +kernel))
  have hdeserted := (hbegun.step (.dropAll trivial)).trans (hsettle _ (by decide +kernel))
  have hadded := reach_add (s := .start Cache.deserted) .bar trivial
  rw [after_start (by decide +kernel)] at hadded
  have hretold := reach_warmAll (s := .start (Cache.deserted.add .bar).2) [⟨0, 0⟩] trivial
  rw [after_start (by decide +kernel)] at hretold
  have hresettled := ((hdeserted.trans hadded).trans hretold).trans (hsettle _ (by decide +kernel))
  have hfirst := hresettled.trans (reach_regionsAt ⟨0, 3, 1⟩ trivial)
  have hsecond := hfirst.trans (reach_regionsAt ⟨0, 3, 1⟩ trivial)
  exact ⟨_, hsecond.trans (reach_regionsAt ⟨99, 3, 1⟩ trivial)⟩

open Crowd in
/-- three queries, answered in the three ways there are; one sheet that no column had any more when it
was loaded, and one that is a column's; and one survey that a worker took up and stopped -/
theorem revisited_accounted : ∃ (run : Nat → Crowd Table) (t : Nat), IsRun (.ofSettings {} {}) run ∧
    (run t).cache = Cache.revisited ∧ begun Deed.asks run t = 3 ∧ begun Deed.consults run t = 0 ∧
    begun Deed.renews run t = 1 ∧ (loadedBy run t).ncard = 2 ∧ stopped run t = 1 ∧
    ∃ r u k n v₀ v, ReceivesAndStops run r u k n v₀ v := by
  have hmake : Cache.make ({} : Table) {} = .ok (Cache.ofSettings {} {}) := rfl
  obtain ⟨regions, hreach⟩ := Scene.reach_revisited
  obtain ⟨run, t, hrun, -, ht, -⟩ := (IsRun.still (.ofSettings ({} : Table) {})).goOn 0
    (steps_of_reach (s := { cache := .ofSettings ({} : Table) {} }) (n := 0) hreach)
  obtain ⟨haccounted, htaken, -⟩ := accounted_of_run hmake hrun
  have hcache : (run t).cache = Cache.revisited := by rw [ht]; rfl
  obtain ⟨hqueries, hforwarded, hrenewals, hloaded, hstopped, hrest⟩ := haccounted t
  obtain ⟨hanswered, hrenewed⟩ := hrest fun n => by
    rw [ht, doing_after]
    split <;> trivial
  have hrenewals := hrenewals (hrun.not_breaksOff (by rw [ht]; rfl))
  have hcounters : Cache.revisited.counters = ⟨1, 1, 1, 2, 1, 1⟩ := by decide +kernel
  have hcalls : Cache.revisited.store.containingCalls = 1 := by decide +kernel
  rw [hcache, hcounters] at hqueries hforwarded hrenewals hloaded hstopped
  rw [hcalls] at hforwarded
  rw [hanswered] at hqueries
  rw [hrenewed] at hrenewals
  have hconsults : 1 = 1 + begun Deed.consults run t := hforwarded
  refine ⟨run, t, hrun, hcache, hqueries.symm, by omega, hrenewals.symm, hloaded.symm, hstopped.symm,
    ?_⟩
  -- what was counted happened at some moment
  have hsome : ∃ u k n v, Stops run u k n v := by
    by_contra hnone
    push Not at hnone
    classical
    rw [stopped, Nat.count_eq_card_filter_range, Finset.filter_false_of_mem] at hstopped
    · cases hstopped
    · rintro u - ⟨k, n, v, hv⟩
      exact hnone u k n v hv
  obtain ⟨u, k, n, v, hstops⟩ := hsome
  obtain ⟨r, v₀, hr⟩ := htaken u k n v hstops
  exact ⟨r, u, k, n, v₀, v, hr⟩

end Precinct
