import Mathlib
import Precinct.Proofs.Cache.Sheets

/-!
# Every known column is seen to

While no survey is lost and every worker can be started, a known column that is not loaded is on its
way.

* `flatten_batches`    cutting columns into batches loses none;
* `Survey.Owes`        what a survey has still to see to;
* `Cache.Awaits`       a survey of the present epoch, in a pool that was not cancelled, has still to
                       see to the sheet of a column;
* `Worked.awaits`      a step of a worker keeps that up, unless the sheet is loaded by it;
* `Covered`            a known column is loaded, or in a batch that is yet to be submitted, or awaited;
* `Covered.step`       every step keeps that up while the pool that takes new jobs takes them;
* `Coverage`           the invariant of a host by itself: `coverage_of_reach`.

A survey drops what it owes in three cases: the column is not known any more, its sheet is loaded,
or the pool was cancelled, and then the epoch of the survey has passed.
-/

namespace Precinct

/-- what a survey has still to see to: the sheet it has in hand and the columns behind it -/
def Survey.Owes (v : Survey) (column : Column) (i : Nat) : Prop :=
  match v.phase.sheet? with
  | none => column ∈ v.columns
  | some j => v.columns.head? = some column ∧ j = i ∨ column ∈ v.columns.tail

/-- the batches that are yet to be submitted -/
def Doing.pending : Doing → List (List Column)
  | scheduling batches _ => batches
  | nothing | writing | asking _ _ | answered _ _ | swapped _ | draining _ | drained _
  | dismissing _ _ _ | dismissed _ => []

namespace Cache
variable {σ : Type}

/-- a survey of the present epoch in a pool that was not cancelled has still to see to a sheet -/
def Awaits (c : Cache σ) (k : Nat) (column : Column) (i : Nat) : Prop :=
  (c.pool k).cancelled = false ∧ ∃ v ∈ (c.pool k).jobs, v.epoch = c.epoch ∧ v.Owes column i

/-! ## batches -/

/-- **Cutting columns into batches loses none and keeps their order.** -/
theorem flatten_batches {n : Nat} (hn : n ≠ 0) (columns : List Column) :
    (batches n columns).flatten = columns := by
  induction columns using batches.induct n with
  | case1 columns h =>
    rw [batches, dif_pos h]
    exact (h.resolve_left hn).symm
  | case2 columns h ih =>
    rw [batches, dif_neg h, List.flatten_cons, ih]
    exact List.take_append_drop n columns

/-! ## columns that become known -/

variable {c c' : Cache σ} {k n : Nat} {column : Column} {i : Nat}

/-- a column that is known afterwards was known before, or is among those made known -/
theorem sheetOf?_insertAllMissing (columns : List Column)
    (h : (c.insertAllMissing columns).2.sheetOf? column = some i) :
    c.sheetOf? column = some i ∨
      column ∈ (c.insertAllMissing columns).1 ∧ column ∈ columns := by
  induction columns generalizing c with
  | nil => exact Or.inl h
  | cons first rest ih =>
    have hrest := ih (c := (c.insertMissing first).2) h
    rw [insertAllMissing]
    cases hk : c.sheetOf? first with
    | some j =>
      rw [insertMissing_of_known (by rw [hk]; rfl)] at hrest ⊢
      exact hrest.imp id fun hr => ⟨hr.1, List.mem_cons_of_mem first hr.2⟩
    | none =>
      rw [insertMissing_of_missing hk] at hrest ⊢
      rcases hrest with hone | hr
      · rw [sheetOf?_insert] at hone
        split at hone
        · rename_i he
          rw [← he]
          exact Or.inr ⟨List.mem_cons_self, List.mem_cons_self⟩
        · exact Or.inl hone
      · exact Or.inr ⟨List.mem_cons_of_mem first hr.1, List.mem_cons_of_mem first hr.2⟩

/-! ## the workers -/

theorem Awaits.lt_size (h : c.Awaits k column i) : k < c.pools.size := by
  refine lt_size_of_pool fun hd => ?_
  obtain ⟨-, v, hv, -⟩ := h
  rw [hd] at hv
  exact absurd hv List.not_mem_nil

theorem Awaits.of_frame (h : c.Awaits k column i) (hepoch : c'.epoch = c.epoch)
    (hcancelled : (c'.pool k).cancelled = (c.pool k).cancelled)
    (hjobs : ∀ v ∈ (c.pool k).jobs, v ∈ (c'.pool k).jobs) : c'.Awaits k column i := by
  obtain ⟨hgoes, v, hv, hve, howes⟩ := h
  exact ⟨hcancelled.trans hgoes, v, hjobs v hv, hve.trans hepoch.symm, howes⟩

/-- a pool that is put in place of another keeps what is awaited of it, if it goes on with it -/
theorem Awaits.setPool {j : Nat} {d : Cache σ} {p : Pool Survey} (h : c.Awaits j column i)
    (hpools : d.pools = c.pools) (hepoch : d.epoch = c.epoch)
    (hcancelled : p.cancelled = (c.pool k).cancelled)
    (hjob : j = k → ∃ v ∈ p.jobs, v.epoch = c.epoch ∧ v.Owes column i) :
    (d.setPool k p).Awaits j column i := by
  have hsize := h.lt_size
  have hpool : (d.setPool k p).pool j = if j = k then p else c.pool j := by
    rw [pool_setPool_of_pools hpools]
    by_cases hj : j = k
    · rw [if_pos ⟨hj, hj ▸ hsize⟩, if_pos hj]
    · rw [if_neg fun he => hj he.1, if_neg hj]
  rw [Awaits, hpool]
  split
  · rename_i hj
    obtain ⟨v, hv, hve, howes⟩ := hjob hj
    exact ⟨hcancelled.trans (hj ▸ h.1), v, hv, hve.trans hepoch.symm, howes⟩
  · obtain ⟨hgoes, v, hv, hve, howes⟩ := h
    exact ⟨hgoes, v, hv, hve.trans hepoch.symm, howes⟩

variable [RegionStore σ] {v : Survey} {r : SurveyResult}

/-- **A step of a survey keeps what it owes**, unless the sheet is loaded by it, the pool was
cancelled, or the survey is lost. -/
theorem Surveyed.owes (h : Surveyed c k n v r c') (hgoes : (c.pool k).cancelled = false)
    (hepoch : v.epoch = c.epoch) (hknown : c.sheetOf? column = some i)
    (hunloaded : (c'.sheet i).isLoaded = false) (howes : v.Owes column i) :
    r = .breaksOff ∨ ∃ v', r = .goesOn v' ∧ v'.epoch = v.epoch ∧ v'.Owes column i := by
  -- what is behind the first column is left for later
  have hnext : column ∈ v.columns.tail → ∃ v', SurveyResult.goesOn v.next = .goesOn v' ∧
      v'.epoch = v.epoch ∧ v'.Owes column i := fun htail => ⟨v.next, rfl, rfl, htail⟩
  have hsplit : ∀ {head : Column}, v.columns.head? = some head → column ∈ v.columns →
      head = column ∨ column ∈ v.columns.tail := by
    intro head hhead hmem
    rw [List.eq_cons_of_mem_head? hhead] at hmem
    exact (List.mem_cons.mp hmem).imp Eq.symm id
  unfold Survey.Owes at howes
  cases h with
  | empty none =>
    split at howes
    · rw [none] at howes
      exact absurd howes List.not_mem_nil
    · rw [none] at howes
      rcases howes with ⟨hhead, -⟩ | htail
      · cases hhead
      · exact absurd htail List.not_mem_nil
  | stopped head phase stop =>
    rw [hgoes] at stop
    cases stop
  | checked head phase goes =>
    rw [phase] at howes
    exact Or.inr ⟨_, rfl, rfl, howes⟩
  | missing head phase none =>
    rw [phase] at howes
    refine Or.inr (hnext ((hsplit head howes).resolve_left ?_))
    rintro rfl
    rw [sheetFor?, if_pos hepoch.symm, hknown] at none
    cases none
  | found head phase sheet =>
    rw [phase] at howes
    rw [sheetFor?, if_pos hepoch.symm] at sheet
    refine Or.inr ⟨_, rfl, rfl, ?_⟩
    rcases hsplit head howes with rfl | htail
    · rw [hknown] at sheet
      exact Or.inl ⟨head, (Option.some.inj sheet).symm⟩
    · exact Or.inr htail
  | loaded head phase yes =>
    rw [phase] at howes
    rcases howes with ⟨-, rfl⟩ | htail
    · rw [hunloaded] at yes
      cases yes
    · exact Or.inr (hnext htail)
  | entered head phase no =>
    rw [phase] at howes
    exact Or.inr ⟨_, rfl, rfl, howes⟩
  | failed head phase gives => exact Or.inl rfl
  | collected head phase gives =>
    rw [phase] at howes
    exact Or.inr ⟨_, rfl, rfl, howes⟩
  | published head phase =>
    rw [phase] at howes
    rcases howes with ⟨-, rfl⟩ | htail
    · rw [sheet_publishSheet, if_pos rfl, Sheet.isLoaded, Sheet.regions_publish] at hunloaded
      cases hunloaded
    · exact Or.inr (hnext htail)

theorem Surveyed.isLoaded (h : Surveyed c k n v r c') (hl : (c.sheet i).isLoaded = true) :
    (c'.sheet i).isLoaded = true := by
  cases h with
  | @published column j regions head phase => exact (c.sheet_publishSheet_column j i regions).2 hl
  | _ => exact hl

theorem Worked.isLoaded {w : WorkerStep} (h : Worked c k n w c') (hl : (c.sheet i).isLoaded = true) :
    (c'.sheet i).isLoaded = true := by
  rcases h.cases with ⟨m, p, -, rfl⟩ | ⟨v, r, d, -, hdoes, rfl⟩
  · exact hl
  · exact (hdoes.isLoaded hl :)

/-- **A step of a worker keeps a sheet awaited** that it does not load. -/
theorem Worked.awaits {w : WorkerStep} {j : Nat} (hp : (c.pool k).Sound) (h : Worked c k n w c')
    (hkept : c.breaksOff k n w = false) (hknown : c.sheetOf? column = some i)
    (hunloaded : (c'.sheet i).isLoaded = false) (ha : c.Awaits j column i) :
    c'.Awaits j column i := by
  cases h with
  | @moved m p makes =>
    obtain ⟨w, -, hw, hm⟩ := Pool.moved_of_step? hp.nodup makes
    refine ha.setPool rfl rfl hm.frame.2.2 ?_
    rintro rfl
    obtain ⟨hgoes, v, hv, hve, howes⟩ := ha
    obtain ⟨lost, hperm, hlost⟩ := hm.jobs_perm hw
    rw [hlost (Or.inl hgoes)] at hperm
    exact ⟨v, hperm.subset hv, hve, howes⟩
  | @goesOn w u u' d worker phase does =>
    refine ha.setPool does.pools does.epoch rfl ?_
    rintro rfl
    obtain ⟨hgoes, v, hv, hve, howes⟩ := ha
    obtain ⟨rest, hbefore, hafter, -⟩ := Pool.exists_other_jobs hp worker phase
    rcases List.mem_cons.mp (hbefore.subset hv) with rfl | hrest
    · rcases does.owes hgoes hve hknown hunloaded howes with hlost | ⟨v', he, hve', howes'⟩
      · cases hlost
      · cases he
        exact ⟨u', (hafter u').symm.subset List.mem_cons_self, hve'.trans hve, howes'⟩
    · exact ⟨v, (hafter u').symm.subset (List.mem_cons_of_mem u' hrest), hve, howes⟩
  | @ends w u d worker phase does =>
    refine ha.setPool does.pools does.epoch rfl ?_
    rintro rfl
    obtain ⟨hgoes, v, hv, hve, howes⟩ := ha
    obtain ⟨rest, hbefore, -, hafter⟩ := Pool.exists_other_jobs hp worker phase
    rcases List.mem_cons.mp (hbefore.subset hv) with rfl | hrest
    · rcases does.owes hgoes hve hknown hunloaded howes with hlost | ⟨v', he, -⟩
      · cases hlost
      · cases he
    · exact ⟨v, hafter.symm.subset hrest, hve, howes⟩
  | breaksOff worker phase does lost =>
    rw [hkept] at lost
    cases lost

end Cache

/-! ## the invariant -/

/-- a known column that is not loaded is to be submitted, by the host or by others, or awaited -/
def Covered {σ : Type} (others : Column → Prop) (s : Scene σ) : Prop :=
  ∀ column i, s.cache.sheetOf? column = some i → (s.cache.sheet i).isLoaded = false →
    (column ∈ s.doing.pending.flatten ∨ others column) ∨ ∃ k, s.cache.Awaits k column i

/-- what makes every known column be seen to -/
structure Coverage {σ : Type} (s : Scene σ) : Prop where
  custody : Custody s
  filed : Filed s.cache
  batchSize : s.cache.settings.batchSize.toNat ≠ 0
  covered : s.mishap = false → Covered (fun _ => False) s

section
variable {σ : Type} {others : Column → Prop} {s s' : Scene σ}

theorem Covered.of_frame (h : Covered others s) (hsheets : s'.cache.sheets = s.cache.sheets)
    (hcolumns : s'.cache.columns = s.cache.columns)
    (hpending : s.doing.pending = [] ∨ s'.doing = s.doing)
    (hawaits : ∀ k column i, s.cache.Awaits k column i → s'.cache.Awaits k column i) :
    Covered others s' := by
  intro column i hi hl
  rw [Cache.sheetOf?_congr hcolumns] at hi
  rw [Cache.sheet_congr hsheets] at hl
  rcases h column i hi hl with (hp | ho) | ⟨k, hk⟩
  · rcases hpending with hnil | he
    · rw [hnil] at hp
      exact absurd hp List.not_mem_nil
    · rw [he]
      exact Or.inl (Or.inl hp)
  · exact Or.inl (Or.inr ho)
  · exact Or.inr ⟨k, hawaits k column i hk⟩

theorem covered_of_unknown (h : ∀ column, s.cache.sheetOf? column = none) : Covered others s := by
  intro column i hi
  rw [h column] at hi
  cases hi

theorem Doing.AtRest.pending {d : Doing} (h : d.AtRest) : d.pending = [] := by
  cases d with
  | scheduling batches renewal => exact h.elim
  | _ => rfl

/-! ## steps that bring columns in, or take some off -/

theorem Cache.Awaits.of_pools {c c' : Cache σ} {k : Nat} {column : Column} {i : Nat}
    (h : c.Awaits k column i) (hepoch : c'.epoch = c.epoch) (hpools : c'.pools = c.pools) :
    c'.Awaits k column i := by
  have hk : c'.pool k = c.pool k := Cache.pool_congr hpools k
  exact h.of_frame hepoch (by rw [hk]) fun v hv => hk ▸ hv

/-- the known columns of a new epoch are all to be submitted -/
theorem covered_restart (h : s.cache.settings.batchSize.toNat ≠ 0) {known : List Column} :
    Covered others { s with
      cache := s.cache.restart known
      doing := .scheduling (s.cache.cut known) true } := by
  intro column i hi _
  rcases Cache.sheetOf?_insertAllMissing _ hi with hold | ⟨-, hkey⟩
  · rw [Cache.sheetOf?_turn] at hold
    cases hold
  · refine Or.inl (Or.inl ?_)
    show column ∈ (Cache.batches _ _).flatten
    rw [Cache.flatten_batches h]
    exact hkey

/-- columns become known, and those that were not are to be submitted -/
theorem Covered.warm (h : Covered others s) (hfiled : Filed s.cache)
    (hbatch : s.cache.settings.batchSize.toNat ≠ 0) (rest : s.doing.AtRest)
    (columns : List Column) :
    Covered others { s with
      cache := (s.cache.insertAllMissing columns).2
      doing := .scheduling (s.cache.cut (s.cache.insertAllMissing columns).1) false } := by
  intro column i hi hl
  obtain ⟨-, -, hepoch, hpools, -⟩ := s.cache.insertAllMissing_frame columns
  rcases Cache.sheetOf?_insertAllMissing columns hi with hold | ⟨hnew, -⟩
  · have hsheet : (s.cache.insertAllMissing columns).2.sheet i = s.cache.sheet i :=
      (hfiled.insertAllMissing_of_lt (hfiled.columns column i hold).1 columns).1
    rcases h column i hold (hsheet ▸ hl) with (hp | ho) | ⟨k, hk⟩
    · rw [rest.pending] at hp
      exact absurd hp List.not_mem_nil
    · exact Or.inl (Or.inr ho)
    · exact Or.inr ⟨k, hk.of_pools hepoch hpools⟩
  · refine Or.inl (Or.inl ?_)
    show column ∈ (Cache.batches _ _).flatten
    rw [Cache.flatten_batches hbatch]
    exact hnew

theorem Covered.drop (h : Covered others s) (rest : s.doing.AtRest) (forgotten : Column) :
    Covered others { s with cache := s.cache.drop forgotten, doing := .nothing } := by
  intro column i hi hl
  rw [Cache.sheetOf?_drop] at hi
  split at hi
  · cases hi
  · rcases h column i hi hl with (hp | ho) | ⟨k, hk⟩
    · rw [rest.pending] at hp
      exact absurd hp List.not_mem_nil
    · exact Or.inl (Or.inr ho)
    · exact Or.inr ⟨k, hk.of_pools rfl rfl⟩

/-- the columns of a batch that was submitted are awaited -/
theorem Covered.submitted {batch : List Column} {batches : List (List Column)}
    {renewal denied : Bool} {p : Pool Survey} (h : Covered others s) (hc : Crews s)
    (haccepting : (s.cache.pool s.cache.current).accepting = true)
    (hdoing : s.doing = .scheduling (batch :: batches) renewal)
    (hsubmit : Pool.Submitted (s.cache.pool s.cache.current) ⟨s.cache.epoch, batch, .checking⟩
      denied (.ok ()) p) :
    Covered others { s with
      cache := s.cache.setPool s.cache.current p
      doing := .scheduling batches renewal
      mishap := denied || s.mishap
      denied := denied || s.denied } := by
  have hjobs := hsubmit.jobs_perm haccepting
  have hcancelled := hsubmit.frame.2.2
  have hpool : (s.cache.setPool s.cache.current p).pool s.cache.current = p := by
    rw [Cache.pool_setPool, if_pos ⟨rfl, hc.current⟩]
  intro column i hi hl
  rcases h column i hi hl with (hp | ho) | ⟨k, hk⟩
  · rw [hdoing] at hp
    rcases List.mem_append.mp hp with hfirst | hrest
    · refine Or.inr ⟨s.cache.current, ?_, ⟨s.cache.epoch, batch, .checking⟩, ?_, rfl, hfirst⟩
      · rw [hpool, hcancelled]
        exact (hc.sound _).not_cancelled haccepting
      · rw [hpool]
        exact hjobs.symm.subset List.mem_cons_self
    · exact Or.inl (Or.inl hrest)
  · exact Or.inl (Or.inr ho)
  · -- what was awaited before is awaited still
    refine Or.inr ⟨k, hk.setPool rfl rfl hcancelled ?_⟩
    rintro rfl
    obtain ⟨-, v, hv, hve, howes⟩ := hk
    exact ⟨v, hjobs.symm.subset (List.mem_cons_of_mem _ hv), hve, howes⟩

/-! ## steps that only touch pools -/

theorem Cache.Awaits.freshPool {c : Cache σ} {k : Nat} {column : Column} {i : Nat}
    (h : c.Awaits k column i) : c.freshPool.Awaits k column i := by
  refine h.of_frame rfl ?_ fun v hv => c.jobs_freshPool k ▸ hv
  rw [Cache.pool_freshPool, if_neg h.lt_size.ne]

theorem Cache.Awaits.closePool {c : Cache σ} {k : Nat} {column : Column} {i : Nat}
    (h : c.Awaits k column i) (j : Nat) : (c.closePool j).Awaits k column i := by
  refine h.setPool rfl rfl rfl ?_
  rintro rfl
  exact h.2

theorem Cache.Awaits.elapse {c : Cache σ} {k : Nat} {column : Column} {i : Nat}
    (h : c.Awaits k column i) (hp : (c.pool k).Sound) (ms : Nat) :
    (c.elapse ms).Awaits k column i := by
  refine h.of_frame rfl ?_ fun v hv => (Cache.jobs_elapse hp ms).symm.subset hv
  rcases c.pool_elapse ms k with he | he
  · rw [he]
  · obtain ⟨-, -, hcancelled, -⟩ := Pool.elapse_frame _ hp ms
    rw [he, hcancelled]

variable [RegionStore σ]

/-- what a worker sees to is loaded, or still awaited -/
theorem Covered.worked {k n : Nat} {w : WorkerStep} {c : Cache σ} {mishap : Bool}
    (h : Covered others s) (hp : (s.cache.pool k).Sound) (hwork : Cache.Worked s.cache k n w c)
    (hkept : s.cache.breaksOff k n w = false) : Covered others { s with cache := c, mishap } := by
  obtain ⟨-, -, hcols, -⟩ := hwork.frame
  intro column i hi hl
  rw [Cache.sheetOf?_congr (c := s.cache) hcols] at hi
  have hbefore : (s.cache.sheet i).isLoaded = false := by
    rw [Bool.eq_false_iff]
    intro hloaded
    rw [hwork.isLoaded hloaded] at hl
    cases hl
  refine (h column i hi hbefore).imp id ?_
  rintro ⟨j, hj⟩
  exact ⟨j, hwork.awaits hp hkept hi hl hj⟩

/-! ## every step -/

/-- **Every step keeps every known column seen to.** -/
theorem Covered.step (h : Covered others s) (hc : Crews s)
    (haccepting : (s.cache.pool s.cache.current).accepting = true) (hfiled : Filed s.cache)
    (hbatch : s.cache.settings.batchSize.toNat ≠ 0) (hs : Step s s') (hm : s'.mishap = false) :
    Covered others s' := by
  have hsame : ∀ {c : Cache σ}, c.epoch = s.cache.epoch → c.pools = s.cache.pools →
      ∀ k column i, s.cache.Awaits k column i → c.Awaits k column i :=
    fun hepoch hpools _ _ _ ha => ha.of_pools hepoch hpools
  cases hs with
  | write w rest => exact h.of_frame rfl rfl (Or.inl rest.pending) (hsame rfl rfl)
  | chore t rest => exact h.of_frame rfl rfl (Or.inl rest.pending) (hsame rfl rfl)
  | renew listed rest => exact covered_restart hbatch
  | warm columns rest => exact h.warm hfiled hbatch rest columns
  | drop column rest => exact h.drop rest column
  | dropAll rest => exact covered_of_unknown s.cache.sheetOf?_turn
  | @submit batch batches renewal denied p doing taken =>
    have hsub := Pool.submitted (s.cache.pool s.cache.current) ⟨s.cache.epoch, batch, .checking⟩ denied
    rw [taken] at hsub
    exact h.submitted hc haccepting doing hsub
  | breakOff doing refused => cases hm
  | @scheduled renewal doing =>
    cases renewal <;> exact h.of_frame rfl rfl (Or.inl (by rw [doing]; rfl)) (hsame rfl rfl)
  | ask p rest =>
    obtain ⟨-, -, hepoch, hcols, hsheets, hpools, -⟩ := (s.cache.resolved p.column).frame
    exact h.of_frame hsheets hcols (Or.inl rest.pending) (hsame hepoch hpools)
  | @answer p found doing =>
    obtain ⟨-, hepoch, hcols, hsheets, hpools, -⟩ := s.cache.answer_frame p found
    exact h.of_frame hsheets hcols (Or.inl (by rw [doing]; rfl)) (hsame hepoch hpools)
  | overlap r rest => exact h.of_frame rfl rfl (Or.inl rest.pending) (hsame rfl rfl)
  | consult p rest => exact h.of_frame rfl rfl (Or.inl rest.pending) (hsame rfl rfl)
  | swap rest => exact h.of_frame rfl rfl (Or.inl rest.pending) fun _ _ _ ha => ha.freshPool
  | @close k doing =>
    exact h.of_frame rfl rfl (Or.inl (by rw [doing]; rfl)) fun _ _ _ ha => ha.closePool k
  | drained doing => exact h.of_frame rfl rfl (Or.inl (by rw [doing]; rfl)) (hsame rfl rfl)
  | dismiss rest => exact covered_of_unknown s.cache.sheetOf?_turn
  | observe doing => exact h.of_frame rfl rfl (Or.inl (by rw [doing]; rfl)) (hsame rfl rfl)
  | @dismissed pools stopped doing =>
    cases stopped <;> exact h.of_frame rfl rfl (Or.inl (by rw [doing]; rfl)) (hsame rfl rfl)
  | closeGate => exact h.of_frame rfl rfl (Or.inr rfl) (hsame rfl rfl)
  | openGate => exact h.of_frame rfl rfl (Or.inr rfl) (hsame rfl rfl)
  | failNext => exact h.of_frame rfl rfl (Or.inr rfl) (hsame rfl rfl)
  | @work k number w c makes =>
    exact h.worked (hc.sound k) (Cache.worked_of_step? makes)
      (Bool.or_eq_false_iff.mp hm).2
  | elapse ms =>
    exact h.of_frame rfl rfl (Or.inr rfl) fun k _ _ ha => ha.elapse (hc.sound k) ms

theorem Coverage.step (h : Coverage s) (hs : Step s s') : Coverage s' :=
  ⟨h.custody.step hs, h.filed.step h.custody.toCrews hs, hs.settings ▸ h.batchSize, fun hm =>
    (h.covered (hs.mishap hm)).step h.custody.toCrews h.custody.accepting h.filed h.batchSize hs hm⟩

omit [RegionStore σ] in
theorem coverage_start (store : σ) {settings : Settings} (h : settings.batchSize.toNat ≠ 0) :
    Coverage (Scene.start (Cache.ofSettings store settings)) :=
  ⟨custody_start store settings, filed_start store settings, h,
    fun _ => covered_of_unknown (Cache.sheetOf?_ofSettings store settings)⟩

theorem coverage_of_reach {store : σ} {settings : Settings} (h : settings.batchSize.toNat ≠ 0)
    (hs : Scene.Reach (.start (Cache.ofSettings store settings)) s) : Coverage s :=
  hs.invariant (fun _ _ hc hstep => hc.step hstep) (coverage_start store h)

end
end Precinct
