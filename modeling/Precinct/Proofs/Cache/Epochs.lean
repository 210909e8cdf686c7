import Mathlib
import Precinct.Proofs.Cache.Crowd
import Precinct.Proofs.Cache.Waits

/-!
# What is left of an epoch that has passed

* `Surveyed.sheet?`    a survey takes a sheet in hand only in its own epoch;
* `Refiled.handled`    in one step a pool goes onward, or a worker of it goes on with its survey;
* `Apart`              the invariant: a survey of an earlier epoch has no sheet of a known column in
                       hand, and one that nobody runs yet has none at all;
* `Apart.refiled`      every step keeps it;
* `Cache.SameMap`      nobody who asks the cache can tell the difference, and a survey of an earlier
                       epoch makes none (`Apart.sameMap`);
* `IsRun.ran`          the worker that queries for a survey of an earlier epoch has had the sheet in
                       hand all the time since that epoch passed;
* `past_of_run`        **so what is left of an epoch that has passed stays apart from the map.**

Sheets are numbered and no number is used again, so a column that is forgotten and becomes known
again has another sheet than the one that an old survey may have in hand.  Whether the pool was
cancelled is never looked at.
-/

namespace Precinct
open Relation (ReflTransGen)

/-- an epoch begins: the known columns are surveyed anew, or forgotten, or forgotten by one who waits
for the surveys to stop -/
def Cache.BeginsEpoch {σ : Type} (c c' : Cache σ) : Prop :=
  (∃ known : List Column, known.Perm c.columns.keys ∧ c' = c.restart known) ∨ c' = c.dropAll ∨
    c' = c.turn.2.takeDismissed.2

/-- the same columns are known, with the same sheets, and the same sheet answered last -/
structure Cache.SameMap {σ : Type} (c c' : Cache σ) : Prop where
  columns : c'.columns = c.columns
  recent : c'.recent = c.recent
  sheets : ∀ column i, c.sheetOf? column = some i → c'.sheet i = c.sheet i

/-- a survey of the present epoch, or one that has no sheet of a known column in hand -/
def Cache.Admits {σ : Type} (c : Cache σ) (v : Survey) : Prop :=
  v.epoch = c.epoch ∨
    v.epoch < c.epoch ∧ ∀ i, v.phase.sheet? = some i → ∀ column, c.sheetOf? column ≠ some i

/-- surveys of earlier epochs are apart from the known columns -/
structure Apart {σ : Type} (c : Cache σ) : Prop where
  unbegun : ∀ k v, (c.pool k).Unbegun v → v.phase = .checking
  jobs : ∀ k, ∀ v ∈ (c.pool k).jobs, c.Admits v

section
variable {σ : Type} {c c' : Cache σ} {k n : Nat} {v v' : Survey}

theorem Cache.Admits.epoch_le (h : c.Admits v) : v.epoch ≤ c.epoch :=
  h.elim Eq.le fun hpast => hpast.1.le

theorem Cache.BeginsEpoch.epoch (h : c.BeginsEpoch c') : c'.epoch = c.epoch + 1 := by
  rcases h with ⟨known, -, rfl⟩ | rfl | rfl
  · exact c.epoch_restart known
  · rfl
  · rfl

/-! ## steps that no survey makes -/

theorem Cache.Admits.of_frame (h : c.Admits v) (hepoch : c'.epoch = c.epoch)
    (hknown : ∀ column i, v.phase.sheet? = some i → c'.sheetOf? column = some i →
      c.sheetOf? column = some i) : c'.Admits v := by
  refine (h.imp (fun he => he.trans hepoch.symm) fun hpast => ⟨hpast.1.trans_eq hepoch.symm, ?_⟩)
  intro i hi column hc
  exact hpast.2 i hi column (hknown column i hi hc)

theorem Cache.Admits.of_columns (h : c.Admits v) (hepoch : c'.epoch = c.epoch)
    (hcolumns : c'.columns = c.columns) : c'.Admits v := by
  refine h.of_frame hepoch fun column i _ hi => ?_
  rw [Cache.sheetOf?_congr hcolumns] at hi
  exact hi

theorem Apart.insertAllMissing (h : Apart c) (hf : Filed c) (columns : List Column) :
    Apart (c.insertAllMissing columns).2 := by
  obtain ⟨-, -, hepoch, hpools, -⟩ := c.insertAllMissing_frame columns
  have hpool : ∀ k, (c.insertAllMissing columns).2.pool k = c.pool k := Cache.pool_congr hpools
  refine ⟨fun k v hv => h.unbegun k v (hpool k ▸ hv), fun k v hv => ?_⟩
  rw [hpool] at hv
  -- the new columns get sheets that nobody has in hand
  exact (h.jobs k v hv).of_frame hepoch fun column i hi =>
    (hf.insertAllMissing_of_lt (hf.surveys k v hv i hi).1 columns).2 column

/-- at the beginning of an epoch every survey is of an earlier one, and no column is known -/
theorem Apart.turn (h : Apart c) (hc : c.current < c.pools.size) : Apart c.turn.2 := by
  have hon : ∀ k, (c.pool k).Onward (fun _ => False) (c.turn.2.pool k) := Cache.onward_turn hc
  refine ⟨fun k v hv => h.unbegun k v (((hon k).unbegun v hv).resolve_right id),
    fun k v hv => Or.inr ⟨?_, fun i _ column hi => ?_⟩⟩
  · exact Nat.lt_succ_of_le (h.jobs k v (((hon k).jobs hv).resolve_right id)).epoch_le
  · rw [Cache.sheetOf?_turn] at hi
    cases hi

theorem Apart.left (h : Apart c) (hl : c.LeavesSheets c') : Apart c' := by
  refine ⟨fun k v hv => ?_, fun k v hv => ?_⟩
  · exact ((hl.pools k).unbegun v hv).elim (h.unbegun k v) And.left
  · rcases (hl.pools k).jobs hv with hold | hnew
    · exact (h.jobs k v hold).of_columns hl.epoch hl.columns
    · exact Or.inl (hnew.2.trans hl.epoch.symm)

/-! ## steps of a survey -/

variable [RegionStore σ] {r : SurveyResult}

/-- **A survey takes a sheet in hand only in its own epoch.** -/
theorem Cache.Surveyed.sheet? (h : Cache.Surveyed c k n v (.goesOn v') c') :
    v'.epoch = v.epoch ∧ ∀ i, v'.phase.sheet? = some i →
      v.epoch = c.epoch ∨ v.phase.sheet? = some i ∧ v'.phase ≠ .examining i := by
  have hkeeps : ∀ {i : Nat} {phase : SurveyPhase}, v.phase.sheet? = some i →
      phase.sheet? = some i → phase ≠ .examining i → ∀ j, phase.sheet? = some j →
      v.epoch = c.epoch ∨ v.phase.sheet? = some j ∧ phase ≠ .examining j := by
    intro i phase hv hi hne j hj
    cases hi.symm.trans hj
    exact Or.inr ⟨hv, hne⟩
  cases h with
  | checked head phase goes => exact ⟨rfl, nofun⟩
  | missing head phase none => exact ⟨rfl, nofun⟩
  | found head phase sheet =>
    exact ⟨rfl, fun i hi => Or.inl (Cache.sheetFor?_eq_some sheet).1⟩
  | loaded head phase yes => exact ⟨rfl, nofun⟩
  | entered head phase no => exact ⟨rfl, hkeeps (by rw [phase]; rfl) rfl nofun⟩
  | collected head phase gives => exact ⟨rfl, hkeeps (by rw [phase]; rfl) rfl nofun⟩
  | published head phase => exact ⟨rfl, nofun⟩

theorem Cache.Surveyed.sheet_of_ne (h : Cache.Surveyed c k n v r c') {i : Nat}
    (hi : v.phase.sheet? ≠ some i) : c'.sheet i = c.sheet i := by
  cases h with
  | published head phase =>
    rw [Cache.sheet_publishSheet, if_neg]
    rintro rfl
    exact hi (by rw [phase]; rfl)
  | _ => rfl

/-- only a survey that examines a sheet begins a query -/
theorem Cache.Surveyed.queries (h : Cache.Surveyed c k n v r c')
    (hq : c.store.intersectingCalls < c'.store.intersectingCalls) :
    ∃ i, v.phase = .examining i ∧ r = .goesOn { v with phase := .querying i } := by
  have hcollect : ∀ {region : Region} {outcome : Except Fault (List Region)} {w : Watched σ},
      c.store.collect region = (outcome, w) → w.intersectingCalls = c.store.intersectingCalls := by
    intro region outcome w hw
    unfold Watched.collect at hw
    split at hw
    · cases hw
      rfl
    · cases hw
      rfl
  cases h with
  | entered head phase no => exact ⟨_, phase, rfl⟩
  | failed head phase gives => exact absurd (hcollect gives) hq.ne'
  | collected head phase gives => exact absurd (hcollect gives) hq.ne'
  | @published column i regions head phase =>
    rw [(c.publishSheet_frame i regions).1] at hq
    exact absurd hq (lt_irrefl _)
  | _ => exact absurd hq (lt_irrefl _)

/-- a pool goes onward, or a worker of it goes on with its survey -/
inductive Cache.Handled (c : Cache σ) (k : Nat) (p : Pool Survey) : Prop
  | onward (goes : (c.pool k).Onward (fun v => v.phase = .checking) p)
  | surveyed {n : Nat} {v v' : Survey} {d : Cache σ} (runs : (c.pool k).Runs n v)
      (does : Cache.Surveyed c k n v (.goesOn v') d) (goesOn : p = (c.pool k).proceed n v')

theorem Cache.Worked.handled {w : WorkerStep} (h : Cache.Worked c k n w c')
    (hp : (c.pool k).Sound) (j : Nat) : c.Handled j (c'.pool j) := by
  rcases h.cases with ⟨m, p, makes, rfl⟩ | ⟨v, r, d, hruns, hdoes, rfl⟩
  · exact .onward (Cache.onward_setPool (Pool.onward_step? hp makes) j)
  · rw [Cache.pool_setPool_of_pools hdoes.pools]
    split
    · rename_i hj
      rw [hj.1]
      cases r with
      | goesOn v' => exact .surveyed hruns hdoes rfl
      | ends => exact .onward (Pool.onward_finish _ n)
      | breaksOff => exact .onward (Pool.onward_finish _ n)
    · exact .onward (.refl _)

/-- **What one step does to the jobs of a pool.** -/
theorem Cache.Refiled.handled (h : c.Refiled c') (hcurrent : c.current < c.pools.size)
    (hsound : ∀ k, (c.pool k).Sound) (k : Nat) : c.Handled k (c'.pool k) := by
  have hsame : ∀ {c' : Cache σ}, c'.pools = c.pools → c.Handled k (c'.pool k) := by
    intro c' hpools
    rw [Cache.pool_congr hpools]
    exact .onward (.refl _)
  cases h with
  | left leaves => exact .onward ((leaves.pools k).mono fun _ => And.left)
  | asked looks => exact hsame looks.frame.2.2.2.2.2.1
  | known columns => exact hsame (c.insertAllMissing_frame columns).2.2.2.1
  | forgotten column => exact hsame rfl
  | turned columns leaves =>
    obtain ⟨-, -, -, hpools, -⟩ := c.turn.2.insertAllMissing_frame columns
    have hleft := leaves.pools k
    rw [Cache.pool_congr hpools] at hleft
    exact .onward ((Cache.onward_turn hcurrent k).trans (hleft.mono fun _ => And.left))
  | worked works => exact works.handled (hsound _) k

/-! ## every step -/

theorem Apart.worked {w : WorkerStep} (h : Apart c) (hp : (c.pool k).Sound)
    (hwork : Cache.Worked c k n w c') (j : Nat) (hv : v ∈ (c'.pool j).jobs) : c'.Admits v := by
  obtain ⟨-, hepoch, hcolumns, -⟩ := hwork.frame
  have hold : ∀ j, v ∈ (c.pool j).jobs → c'.Admits v :=
    fun j hv => (h.jobs j v hv).of_columns hepoch hcolumns
  rcases hwork.provenance hp with ⟨p, -, hjobs⟩ | ⟨s, r, d, p, hs, hdoes, -, hjobs⟩
  · exact hold j (hjobs j v hv)
  · rcases hjobs j v hv with hv | rfl
    · exact hold j hv
    · obtain ⟨hve, hsheet⟩ := hdoes.sheet?
      refine Cache.Admits.of_columns ?_ hepoch hcolumns
      rcases h.jobs k s hs with he | ⟨hlt, hpast⟩
      · exact Or.inl (hve.trans he)
      · refine Or.inr ⟨hve.trans_lt hlt, fun i hi => hpast i ?_⟩
        exact ((hsheet i hi).resolve_left hlt.ne).1

/-- **Every step keeps surveys of earlier epochs apart.** -/
theorem Apart.refiled (h : Apart c) (hf : Filed c) (hcurrent : c.current < c.pools.size)
    (hsound : ∀ k, (c.pool k).Sound) (hr : c.Refiled c') : Apart c' := by
  have hunbegun : ∀ k v, (c'.pool k).Unbegun v → v.phase = .checking := by
    intro k v hv
    cases hr.handled hcurrent hsound k with
    | onward goes => exact (goes.unbegun v hv).elim (h.unbegun k v) id
    | surveyed runs does goesOn =>
      rw [goesOn] at hv
      exact h.unbegun k v (Pool.unbegun_proceed hv)
  cases hr with
  | left leaves => exact h.left leaves
  | asked looks =>
    obtain ⟨-, -, hepoch, hcolumns, -, hpools, -⟩ := looks.frame
    refine ⟨hunbegun, fun k v hv => (h.jobs k v ?_).of_columns hepoch hcolumns⟩
    rw [Cache.pool_congr hpools] at hv
    exact hv
  | known columns => exact h.insertAllMissing hf columns
  | forgotten column =>
    refine ⟨hunbegun, fun k v hv => (h.jobs k v hv).of_frame rfl fun other i _ hi => ?_⟩
    rw [Cache.sheetOf?_drop] at hi
    split at hi
    · cases hi
    · exact hi
  | turned columns leaves =>
    exact ((h.turn hcurrent).insertAllMissing (hf.turn hcurrent) columns).left leaves
  | worked works => exact ⟨hunbegun, fun j v hv => h.worked (hsound _) works j hv⟩

omit [RegionStore σ] in
theorem apart_start (store : σ) (settings : Settings) : Apart (Cache.ofSettings store settings) := by
  have hnone : ∀ k v, v ∉ ((Cache.ofSettings store settings).pool k).jobs := by
    intro k v hv
    rw [Cache.jobs_ofSettings] at hv
    exact absurd hv List.not_mem_nil
  exact ⟨fun k v hv => absurd (Pool.mem_jobs_iff.mpr (Or.inl hv)) (hnone k v),
    fun k v hv => absurd hv (hnone k v)⟩

/-- **A survey of an earlier epoch changes nothing that anybody asks for**, whatever step its worker
makes. -/
theorem Apart.sameMap {w : WorkerStep} (h : Apart c) (hp : (c.pool k).Sound)
    (hr : (c.pool k).Runs n v) (hpast : v.epoch < c.epoch) (hs : c.step? k n w = some c') :
    c.SameMap c' := by
  have hwork := Cache.worked_of_step? hs
  obtain ⟨-, -, hcolumns, -, hrecent, -⟩ := hwork.frame
  have hapart := (h.jobs k v hr.mem_jobs).resolve_left hpast.ne
  refine ⟨hcolumns, hrecent, fun column i hi => ?_⟩
  rcases hwork.cases with ⟨m, p, -, rfl⟩ | ⟨v', r, d, hruns, hdoes, rfl⟩
  · rfl
  · -- the survey that makes the step is the one that the worker runs
    obtain rfl := hruns.eq hp hr
    exact hdoes.sheet_of_ne fun hi' => hapart.2 i hi' column hi

end

/-! ## runs -/

namespace Crowd
variable {σ : Type} [RegionStore σ] {run : Nat → Crowd σ}

/-- a worker with a survey begins a query of the store -/
structure Asks (run : Nat → Crowd σ) (u k n : Nat) (v : Survey) : Prop where
  runs : ((run u).cache.pool k).Runs n v
  steps : (run u).cache.step? k n .survey = some (run (u + 1)).cache
  counted : (run u).cache.store.intersectingCalls < (run (u + 1)).cache.store.intersectingCalls

/-- a query begins with a sheet to examine, and then the store is asked -/
theorem Asks.querying {u k n : Nat} {v : Survey} (ha : Asks run u k n v)
    (hp : ((run u).cache.pool k).Sound) : ∃ i, v.phase = .examining i ∧
      ((run (u + 1)).cache.pool k).Runs n { v with phase := .querying i } := by
  have hcounted := ha.counted
  have hsize : k < (run u).cache.pools.size := by
    refine Cache.lt_size_of_pool fun hd => ?_
    have hr := ha.runs
    rw [hd] at hr
    exact absurd hr List.not_mem_nil
  rcases (Cache.worked_of_step? ha.steps).cases with ⟨m, p, -, hc⟩ | ⟨v', r, d, hruns, hdoes, hc⟩
  · rw [hc] at hcounted
    exact absurd hcounted (lt_irrefl _)
  · obtain rfl := hruns.eq hp ha.runs
    rw [hc] at hcounted ⊢
    obtain ⟨i, hi, rfl⟩ := hdoes.queries hcounted
    refine ⟨i, hi, ?_⟩
    rw [Cache.pool_setPool_of_pools hdoes.pools, if_pos ⟨rfl, hsize⟩]
    exact ha.runs.proceed _

/-- what is left of the epochs that have passed at a moment stays apart from the map -/
structure Past (run : Nat → Crowd σ) (t : Nat) : Prop where
  /-- whatever was submitted before the latest epoch began is of an earlier one -/
  older : ∀ s < t, (run s).cache.BeginsEpoch (run (s + 1)).cache → ∀ k,
    ∀ v ∈ ((run s).cache.pool k).jobs, v.epoch < (run t).cache.epoch
  /-- the sheet that such a survey has in hand, to publish to, is no known column's -/
  apart : ∀ k, ∀ v ∈ ((run t).cache.pool k).jobs, v.epoch < (run t).cache.epoch →
    ∀ i, v.phase.sheet? = some i → ∀ column, (run t).cache.sheetOf? column ≠ some i
  /-- it loads, replaces, adds and removes nothing -/
  sameMap : ∀ k n v w c', ((run t).cache.pool k).Runs n v → v.epoch < (run t).cache.epoch →
    (run t).cache.step? k n w = some c' → (run t).cache.SameMap c'
  /-- it begins a query only for a sheet that it had looked up already, -/
  asks : ∀ k n v u, t ≤ u → v.epoch < (run t).cache.epoch → Asks run u k n v →
    ∃ i, v.phase = .examining i ∧ ∀ m, t ≤ m → m ≤ u → ((run m).cache.pool k).Runs n v
  /-- and its worker begins no other query for an earlier epoch -/
  once : ∀ k n v v' u u', t ≤ u → t ≤ u' → v.epoch < (run t).cache.epoch →
    v'.epoch < (run t).cache.epoch → Asks run u k n v → Asks run u' k n v' → u = u'

namespace IsRun
variable {store : σ} {settings : Settings} (h : IsRun (.ofSettings store settings) run)
include h

theorem apart (t : Nat) : Apart (run t).cache := by
  induction t with
  | zero =>
    rw [h.start]
    exact apart_start store settings
  | succ t ih =>
    rcases h.acts t with he | ⟨n, s, makes, he⟩
    · rw [he]
      exact ih
    · have horder := h.orderly t
      have hcrews := horder.crews n
      rw [he]
      exact ih.refiled horder.filed hcrews.current hcrews.sound (makes.refiled hcrews)

/-- a worker that examines a sheet for a survey of an earlier epoch did so before -/
theorem ran_before {t k n i : Nat} {v : Survey} (hr : ((run (t + 1)).cache.pool k).Runs n v)
    (hphase : v.phase = .examining i) (hpast : v.epoch < (run t).cache.epoch) :
    ((run t).cache.pool k).Runs n v := by
  rcases h.acts t with he | ⟨m, s, makes, he⟩
  · rw [he] at hr
    exact hr
  · rw [he] at hr
    have hcrews := (h.orderly t).crews m
    have hno : v.phase ≠ .checking := by
      rw [hphase]
      nofun
    cases (makes.refiled hcrews).handled hcrews.current hcrews.sound k with
    | onward goes =>
      rcases goes.runs n v hr with hold | hu | hnew
      · exact hold
      · exact absurd ((h.apart t).unbegun k v hu) hno
      · exact absurd hnew hno
    | surveyed runs does goesOn =>
      rw [show (((run t).after m s).cache.pool k) = _ from goesOn] at hr
      rcases Pool.runs_proceed hr with hold | ⟨-, rfl⟩
      · exact hold
      · -- it would have looked the sheet up just now
        obtain ⟨hve, hsheet⟩ := does.sheet?
        rcases hsheet i (by rw [hphase]; rfl) with hnow | ⟨-, hne⟩
        · exact absurd (hve.trans hnow) hpast.ne
        · exact absurd hphase hne

/-- **A worker that examines a sheet for a survey of an earlier epoch** has done so all the time since
that epoch passed. -/
theorem ran {t u k n i : Nat} {v : Survey} (htu : t ≤ u) (hr : ((run u).cache.pool k).Runs n v)
    (hphase : v.phase = .examining i) (hpast : v.epoch < (run t).cache.epoch) :
    ∀ m, t ≤ m → m ≤ u → ((run m).cache.pool k).Runs n v := by
  induction u, htu using Nat.le_induction with
  | base =>
    intro m htm hmt
    rwa [le_antisymm hmt htm]
  | succ u htu ih =>
    intro m htm hmu
    rcases Nat.le_or_eq_of_le_succ hmu with hmu | rfl
    · have hlater := hpast.trans_le (h.epoch_mono htu)
      exact ih (h.ran_before hr hphase hlater) m htm hmu
    · exact hr

/-- after a query for an earlier epoch its worker begins no other one -/
theorem not_asks_later {t u u' k n : Nat} {v v' : Survey} (htu : t ≤ u) (huu' : u < u')
    (hpast : v'.epoch < (run t).cache.epoch) (ha : Asks run u k n v) : ¬Asks run u' k n v' := by
  intro ha'
  have hsound : ∀ m, ((run m).cache.pool k).Sound := fun m => ((h.orderly m).crews 0).sound k
  obtain ⟨i, -, hasked⟩ := ha.querying (hsound u)
  obtain ⟨i', hi', -⟩ := ha'.querying (hsound u')
  have hran := h.ran (htu.trans huu'.le) ha'.runs hi' hpast (u + 1) (Nat.le_succ_of_le htu) huu'
  rw [← hasked.eq (hsound (u + 1)) hran] at hi'
  cases hi'

end IsRun
end Crowd

open Crowd in
/-- **What is left of an epoch that has passed stays apart from the map**, at every moment of every
run. -/
theorem past_of_run {σ : Type} [RegionStore σ] {store : σ} {settings : Settings} {c : Cache σ}
    {run : Nat → Crowd σ} (hc : Cache.make store settings = .ok c) (h : IsRun c run) (t : Nat) :
    Past run t := by
  obtain ⟨-, rfl⟩ := Cache.make_eq_ok hc
  have hsound : ∀ u k, ((run u).cache.pool k).Sound := fun u => ((h.orderly u).crews 0).sound
  refine ⟨fun s hst hbegins k v hv => ?_, fun k v hv hpast => ?_, fun k n v w c' hr hpast hs => ?_,
    fun k n v u htu hpast ha => ?_, fun k n v v' u u' htu htu' hpast hpast' ha ha' => ?_⟩
  · have hle := ((h.apart s).jobs k v hv).epoch_le
    have hlater : (run (s + 1)).cache.epoch ≤ (run t).cache.epoch := h.epoch_mono hst
    rw [hbegins.epoch] at hlater
    omega
  · exact (((h.apart t).jobs k v hv).resolve_left hpast.ne).2
  · exact (h.apart t).sameMap (hsound t k) hr hpast hs
  · obtain ⟨i, hi, -⟩ := ha.querying (hsound u k)
    exact ⟨i, hi, h.ran htu ha.runs hi hpast⟩
  · rcases Nat.lt_trichotomy u u' with hlt | he | hlt
    · exact absurd ha' (h.not_asks_later htu hlt hpast' ha)
    · exact he
    · exact absurd ha (h.not_asks_later htu' hlt hpast ha')

/-- the column was told of, its sheet was looked up by the worker, and then it was forgotten and told
of again -/
def Cache.retold : Cache Table := ((Cache.run 5 Cache.told).dropAll.warmAll [⟨0, 0⟩]).2

/-- the first worker of the first pool goes on with its survey -/
def Cache.carryOn (c : Cache Table) : Cache Table := (c.step? 0 1 .survey).getD c

theorem Cache.step?_eq_carryOn {c : Cache Table} (h : (c.step? 0 1 .survey).isSome = true) :
    c.step? 0 1 .survey = some c.carryOn := by
  obtain ⟨c', hc⟩ := Option.isSome_iff_exists.mp h
  rw [Cache.carryOn, hc, Option.getD_some]

theorem Scene.reach_retold :
    (Scene.start (Cache.ofSettings ({} : Table) {})).Reach (.start Cache.retold) := by
  obtain ⟨lost, hrun, hlost⟩ := goesOn_run 5 (.start Cache.told)
  rw [hlost (by decide +kernel)] at hrun
  have hdrop := reach_step (s := .start (Cache.run 5 Cache.told)) (.dropAll trivial)
  have hwarm := reach_warmAll (s := .start (Cache.run 5 Cache.told).dropAll) [⟨0, 0⟩] trivial
  have hok : (!((Cache.run 5 Cache.told).dropAll.warmAll [⟨0, 0⟩]).1.isOk) = false := by
    decide +kernel
  rw [Scene.after, Scene.start, hok] at hwarm
  exact ((Scene.reach_told.trans hrun.reach).trans hdrop).trans hwarm

open Crowd in
theorem retold_apart : ∃ (run : Nat → Crowd Table) (t : Nat),
    IsRun (.ofSettings {} {}) run ∧
      (∃ v, Asks run t 0 1 v ∧ v.epoch < (run t).cache.epoch ∧ ∃ i, v.phase = .examining i) ∧
      (run (t + 2)).cache.sheetOf? ⟨0, 0⟩ = some 1 ∧
      ((run (t + 2)).cache.sheet 0).isLoaded = false ∧
      ((run (t + 3)).cache.sheet 0).isLoaded = true ∧
      (run (t + 2)).cache.SameMap (run (t + 3)).cache := by
  have hmake : Cache.make ({} : Table) {} = .ok (Cache.ofSettings {} {}) := rfl
  obtain ⟨run₀, t, hrun₀, -, ht, -⟩ :=
    (IsRun.still (.ofSettings ({} : Table) {})).goOn 0 (steps_of_start Scene.reach_retold)
  -- the worker enters the store, has its answer and publishes it
  obtain ⟨run₁, hrun₁, hfirst, hsame₁⟩ := hrun₀.goOn_work t
    (Cache.step?_eq_carryOn (by rw [ht]; decide +kernel))
  rw [ht] at hfirst
  obtain ⟨run₂, hrun₂, hsecond, hsame₂⟩ := hrun₁.goOn_work (t + 1)
    (Cache.step?_eq_carryOn (by rw [hfirst]; decide +kernel))
  rw [hfirst] at hsecond
  obtain ⟨run, hrun, hthird, hsame⟩ := hrun₂.goOn_work (t + 2)
    (Cache.step?_eq_carryOn (by rw [hsecond]; decide +kernel))
  rw [hsecond] at hthird
  have hretold : (run t).cache = Cache.retold := by
    rw [hsame t (by omega), hsame₂ t (by omega), hsame₁ t (le_refl t), ht]
  have hentered : (run (t + 1)).cache = Cache.retold.carryOn := by
    rw [hsame (t + 1) (by omega), hsame₂ (t + 1) (le_refl _), hfirst]
  have hanswered : (run (t + 2)).cache = Cache.retold.carryOn.carryOn := by
    rw [hsame (t + 2) (le_refl _), hsecond]
  have hpublished : (run (t + 3)).cache = Cache.retold.carryOn.carryOn.carryOn := hthird
  have hold : (⟨0, [⟨0, 0⟩], .examining 0⟩ : Survey).epoch < (run t).cache.epoch := by
    rw [hretold]
    decide +kernel
  have hasks : Asks run t 0 1 ⟨0, [⟨0, 0⟩], .examining 0⟩ := by
    refine ⟨?_, ?_, ?_⟩
    · rw [hretold, Pool.Runs]
      decide +kernel
    · rw [hretold, hentered]
      exact Cache.step?_eq_carryOn (by decide +kernel)
    · rw [hretold, hentered]
      decide +kernel
  obtain ⟨i, hi, -⟩ := (past_of_run hmake hrun t).asks 0 1 _ t (le_refl t) hold hasks
  refine ⟨run, t, hrun, ⟨_, hasks, hold, i, hi⟩, ?_, ?_, ?_, ?_⟩
  · rw [hanswered]
    decide +kernel
  · rw [hanswered]
    decide +kernel
  · rw [hpublished]
    decide +kernel
  · refine (past_of_run hmake hrun (t + 2)).sameMap 0 1
      ⟨0, [⟨0, 0⟩], .publishing 0 []⟩ .survey _ ?_ ?_ ?_
    · rw [hanswered, Pool.Runs]
      decide +kernel
    · rw [hanswered]
      decide +kernel
    · rw [hanswered, hpublished]
      exact Cache.step?_eq_carryOn (by decide +kernel)

end Precinct
