import Mathlib
import Precinct.Proofs.Cache.Newcomers

/-!
# What becomes of newcomers

* `Errands`            where the columns are that were made known: to be submitted, with a survey, or
                       loaded.  One that the store was not asked about yet is with a survey that is
                       going to;
* `Errands.call`, `Errands.submit`  more columns become known, and a batch of them is submitted;
* `Errands.progress`   a step of a survey keeps track of them, and asks about what it says;
* `Dispatched`         all surveys are with the pool that takes new jobs: `Dispatched.labour` for a step of
                       a worker, whichever pool it belongs to.

A column that was known before and not loaded stays so: some survey of it may have been lost, and no
other one is made.  So it is not said that what is known and not loaded is left to be done, as `Owed`
does, only that what is left to be done is known and not loaded.
-/

namespace Precinct
open List (Perm)

/-- it has still to ask the store about these -/
def Survey.unasked (v : Survey) : List Column := if v.asks then v.columns.tail else v.columns

/-- the columns about which the store is still to be asked -/
def unasked (pending : List Column) (jobs : List Survey) : List Column :=
  pending ++ jobs.flatMap Survey.unasked

/-- what becomes of the columns that were made known since a cache was as it was -/
structure Errands {σ : Type} (c₀ : Cache σ) (created asked pending : List Column) (jobs : List Survey)
    (c : Cache σ) : Prop where
  present : ∀ v ∈ jobs, v.Present c
  nodup : (todo pending jobs).Nodup
  /-- what is left to be done is known and not loaded -/
  mem : ∀ column ∈ todo pending jobs, (c.sheetOf? column).isSome = true ∧ c.isLoaded column = false
  /-- no newcomer is lost -/
  seen : ∀ column ∈ created, column ∈ todo pending jobs ∨ c.isLoaded column = true
  loaded : c.counters.columnsLoaded + (todo pending jobs).length =
    c₀.counters.columnsLoaded + created.length
  /-- the store was asked about each of them once, or is going to be -/
  once : Perm (asked ++ unasked pending jobs) created
  calls : c.store.intersectingCalls = c₀.store.intersectingCalls + asked.length

/-- the pool that takes new jobs has all of them -/
structure Dispatched {σ : Type} (c₀ : Cache σ) (created asked pending : List Column) (c : Cache σ) :
    Prop where
  others : ∀ j ≠ c.current, (c.pool j).jobs = []
  errands : Errands c₀ created asked pending (c.pool c.current).jobs c

section
variable {σ : Type} {c₀ c c' : Cache σ} {created asked asked' pending pending' new columns batch : List Column}
  {jobs jobs' rest : List Survey} {v v' : Survey} {r : SurveyResult} {column : Column}

/-! ## errands -/

namespace Errands

theorem of_frame (h : Errands c₀ created asked pending jobs c) (hepoch : c'.epoch = c.epoch)
    (hcolumns : c'.columns = c.columns) (hsheets : c'.sheets = c.sheets)
    (hloaded : c'.counters.columnsLoaded = c.counters.columnsLoaded)
    (hcalls : c'.store.intersectingCalls = c.store.intersectingCalls) :
    Errands c₀ created asked pending jobs c' where
  present v hv := (h.present v hv).of_frame hepoch hcolumns
  nodup := h.nodup
  mem column hc := by
    rw [Cache.sheetOf?_congr hcolumns, Cache.isLoaded_congr hcolumns hsheets]
    exact h.mem column hc
  seen column hc := by
    rw [Cache.isLoaded_congr hcolumns hsheets]
    exact h.seen column hc
  loaded := by rw [hloaded, h.loaded]
  once := h.once
  calls := by rw [hcalls, h.calls]

/-- the columns that are left are the same, whoever has them -/
theorem rearrange (h : Errands c₀ created asked pending jobs c)
    (hpresent : ∀ v ∈ jobs', v.Present c) (htodo : Perm (todo pending jobs) (todo pending' jobs'))
    (hasks : Perm (unasked pending jobs) (unasked pending' jobs')) :
    Errands c₀ created asked pending' jobs' c where
  present := hpresent
  nodup := htodo.nodup_iff.mp h.nodup
  mem column hc := h.mem column (htodo.mem_iff.mpr hc)
  seen column hc := (h.seen column hc).imp_left htodo.mem_iff.mp
  loaded := by rw [← htodo.length_eq, h.loaded]
  once := (hasks.symm.append_left asked).trans h.once
  calls := h.calls

theorem perm (h : Errands c₀ created asked pending jobs c) (hperm : Perm jobs jobs') :
    Errands c₀ created asked pending jobs' c :=
  h.rearrange (fun v hv => h.present v (hperm.mem_iff.mpr hv))
    ((hperm.flatMap_right _).append_left pending) ((hperm.flatMap_right _).append_left pending)

theorem submit (h : Errands c₀ created asked (batch ++ pending) jobs c) :
    Errands c₀ created asked pending ({ epoch := c.epoch, columns := batch } :: jobs) c := by
  have hmove : ∀ f : Survey → List Column, f { epoch := c.epoch, columns := batch } = batch →
      Perm ((batch ++ pending) ++ jobs.flatMap f)
        (pending ++ (({ epoch := c.epoch, columns := batch } : Survey) :: jobs).flatMap f) := by
    intro f hf
    rw [List.flatMap_cons, hf, ← List.append_assoc]
    exact List.perm_append_comm.append_right _
  refine h.rearrange (fun v hv => ?_) (hmove _ rfl) (hmove _ rfl)
  rcases List.mem_cons.mp hv with rfl | hv
  · exact Survey.present_of_none rfl rfl
  · exact h.present v hv

/-- **Columns become known**: the newcomers are to be submitted. -/
theorem call (h : Errands c₀ created asked [] jobs c) (hl : Learnt c columns new c')
    (hstore : c'.store = c.store) (hepoch : c'.epoch = c.epoch) (hcounters : c'.counters = c.counters)
    (hkept : ∀ column i, c.sheetOf? column = some i → c'.sheetOf? column = some i) :
    Errands c₀ (created ++ new) asked new jobs c' := by
  have htodo : todo new jobs = new ++ todo [] jobs := rfl
  have hasks : unasked new jobs = new ++ unasked [] jobs := rfl
  refine ⟨fun v hv => ?_, ?_, fun column hc => ?_, fun column hc => ?_, ?_, ?_, ?_⟩
  · obtain ⟨hv', hsheet⟩ := h.present v hv
    refine ⟨hv'.trans hepoch.symm, fun i hi => ?_⟩
    obtain ⟨column, head, hof⟩ := hsheet i hi
    exact ⟨column, head, hkept column i hof⟩
  · rw [htodo]
    refine hl.nodup.append h.nodup fun column hnew hold => ?_
    -- what was left to be done was known, so it is none of the newcomers
    have hknown := (h.mem column hold).1
    rw [((hl.mem column).mp hnew).2] at hknown
    cases hknown
  · rw [htodo] at hc
    rw [hl.known, hl.isLoaded]
    rcases List.mem_append.mp hc with hnew | hold
    · obtain ⟨hmem, hnone⟩ := (hl.mem column).mp hnew
      exact ⟨Or.inl hmem, by rw [Cache.isLoaded, hnone]; rfl⟩
    · exact ⟨Or.inr (h.mem column hold).1, (h.mem column hold).2⟩
  · rw [htodo, hl.isLoaded]
    rcases List.mem_append.mp hc with hold | hnew
    · exact (h.seen column hold).imp_left (List.mem_append_right new)
    · exact Or.inl (List.mem_append_left _ hnew)
  · have := h.loaded
    rw [hcounters, htodo, List.length_append, List.length_append]
    omega
  · rw [hasks]
    refine (Perm.trans ?_ (h.once.append_right new))
    rw [List.append_assoc]
    exact List.perm_append_comm.append_left asked
  · rw [hstore, h.calls]

theorem head (h : Errands c₀ created asked pending (v :: rest) c)
    (hhead : v.columns.head? = some column) :
    (c.sheetOf? column).isSome = true ∧ c.isLoaded column = false := by
  refine h.mem column (List.mem_append_right pending ?_)
  rw [List.flatMap_cons, List.eq_cons_of_mem_head? hhead]
  exact List.mem_append_left _ List.mem_cons_self

theorem publish (h : Errands c₀ created asked pending (v :: rest) c) (hf : Filed c)
    (hhead : v.columns.head? = some column) (hasks : v.asks = true) {i : Nat}
    (hof : c.sheetOf? column = some i) (hnone : (c.sheet i).regions = none) (regions : List Region) :
    Errands c₀ created asked pending (v.next :: rest) (c.publishSheet i regions) := by
  obtain ⟨hstore, -, hcolumns, -⟩ := c.publishSheet_frame i regions
  have hepoch := c.epoch_publishSheet i regions
  -- it was the first that the survey had left, and no other survey has it
  have hperm : Perm (todo pending (v :: rest)) (column :: todo pending (v.next :: rest)) := by
    rw [todo, List.flatMap_cons, List.eq_cons_of_mem_head? hhead]
    exact List.perm_middle
  have hunasked : unasked pending (v.next :: rest) = unasked pending (v :: rest) := by
    rw [unasked, unasked, List.flatMap_cons, List.flatMap_cons, Survey.unasked, Survey.unasked,
      if_neg (show ¬v.next.asks = true from Bool.false_ne_true), if_pos hasks]
    rfl
  have hnodup := List.nodup_cons.mp (hperm.nodup_iff.mp h.nodup)
  refine ⟨fun u hu => ?_, hnodup.2, fun other hother => ?_, fun other hother => ?_, ?_, ?_, ?_⟩
  · rcases List.mem_cons.mp hu with rfl | hu
    · exact Survey.present_of_none ((h.present v List.mem_cons_self).1.trans hepoch.symm) rfl
    · exact (h.present u (List.mem_cons_of_mem v hu)).of_frame hepoch hcolumns
  · have hne : other ≠ column := by
      rintro rfl
      exact hnodup.1 hother
    rw [Cache.sheetOf?_publishSheet, isLoaded_publishSheet hf hof, decide_eq_false hne, Bool.false_or]
    exact h.mem other (hperm.mem_iff.mpr (List.mem_cons_of_mem column hother))
  · rw [isLoaded_publishSheet hf hof]
    rcases h.seen other hother with hleft | hdone
    · rcases List.mem_cons.mp (hperm.mem_iff.mp hleft) with rfl | hleft
      · exact Or.inr (by rw [decide_eq_true rfl, Bool.true_or])
      · exact Or.inl hleft
    · exact Or.inr (by rw [hdone, Bool.or_true])
  · have hloaded := h.loaded
    have hlength := hperm.length_eq
    rw [List.length_cons] at hlength
    rw [counters_publishSheet hnone]
    show c.counters.columnsLoaded + 1 + _ = _
    omega
  · rw [hunasked]
    exact h.once
  · rw [hstore, h.calls]

/-- **A step of a survey** that nothing is in the way of keeps the errands, and asks about what it says. -/
theorem progress (h : Errands c₀ created asked pending (v :: rest) c) (hf : Filed c)
    (hp : v.Progress c r c') :
    (∃ v', r = .goesOn v' ∧ Errands c₀ created (asked ++ v.inquires c) pending (v' :: rest) c') ∨
      r = .ends ∧ Errands c₀ created (asked ++ v.inquires c) pending rest c' := by
  have hpresent : ∀ {v'}, v'.Present c → ∀ u ∈ v' :: rest, u.Present c := by
    intro v' hv' u hu
    rcases List.mem_cons.mp hu with rfl | hu
    · exact hv'
    · exact h.present u (List.mem_cons_of_mem v hu)
  cases hp with
  | @looks v' c' columns asks present epoch known sheets counters calls silent =>
    have hunasked : v'.unasked = v.unasked := by
      rw [Survey.unasked, Survey.unasked, asks, columns]
    rw [silent, List.append_nil]
    have hsame : Errands c₀ created asked pending (v' :: rest) c :=
      h.rearrange (hpresent present) (by rw [todo, todo, List.flatMap_cons, List.flatMap_cons, columns])
        (by rw [unasked, unasked, List.flatMap_cons, List.flatMap_cons, hunasked])
    exact Or.inl ⟨v', rfl, hsame.of_frame epoch known sheets (by rw [counters]) calls⟩
  | @enters v' column caller head columns before asks present inquires =>
    rw [inquires]
    have htodo : todo pending (v' :: rest) = todo pending (v :: rest) := by
      rw [todo, todo, List.flatMap_cons, List.flatMap_cons, columns]
    have hunasked : Perm ([column] ++ unasked pending (v' :: rest)) (unasked pending (v :: rest)) := by
      rw [unasked, unasked, List.flatMap_cons, List.flatMap_cons, Survey.unasked, Survey.unasked,
        if_pos asks, if_neg (by rw [before]; exact Bool.false_ne_true), columns,
        List.eq_cons_of_mem_head? head]
      show Perm (column :: (pending ++ (v.columns.tail ++ rest.flatMap Survey.unasked)))
        (pending ++ column :: (v.columns.tail ++ rest.flatMap Survey.unasked))
      exact List.perm_middle.symm
    refine Or.inl ⟨v', rfl, ⟨hpresent present, ?_, ?_, ?_, ?_, ?_, ?_⟩⟩
    · rw [htodo]
      exact h.nodup
    · rw [htodo]
      exact h.mem
    · rw [htodo]
      exact h.seen
    · rw [htodo]
      exact h.loaded
    · rw [List.append_assoc]
      exact (hunasked.append_left asked).trans h.once
    · show c.store.intersectingCalls + 1 = _
      rw [h.calls, List.length_append, List.length_singleton, Nat.add_assoc]
  | publishes head asks sheet unloaded silent =>
    rw [silent, List.append_nil]
    exact Or.inl ⟨v.next, rfl, h.publish hf head asks sheet unloaded _⟩
  | ends none asks silent =>
    rw [silent, List.append_nil]
    refine Or.inr ⟨rfl, h.rearrange (fun u hu => h.present u (List.mem_cons_of_mem v hu)) ?_ ?_⟩
    · rw [todo, todo, List.flatMap_cons, none, List.nil_append]
    · rw [unasked, unasked, List.flatMap_cons, Survey.unasked, asks, if_neg Bool.false_ne_true, none,
        List.nil_append]

end Errands

/-! ## pools -/

namespace Dispatched

theorem replace {d : Cache σ} {p : Pool Survey} (hothers : ∀ j ≠ c.current, (c.pool j).jobs = [])
    (hpools : d.pools = c.pools) (hcurrent : d.current = c.current) (hsize : c.current < c.pools.size)
    (herrands : Errands c₀ created asked pending p.jobs d) :
    Dispatched c₀ created asked pending (d.setPool c.current p) := by
  have hself : (d.setPool c.current p).pool c.current = p := by
    rw [Cache.pool_setPool_of_pools hpools, if_pos ⟨rfl, hsize⟩]
  have hcurrent' : (d.setPool c.current p).current = c.current := hcurrent
  refine ⟨fun j hj => ?_, ?_⟩
  · rw [Cache.pool_setPool_of_pools hpools, if_neg fun he => hj (he.1.trans hcurrent'.symm)]
    exact hothers j fun he => hj (he.trans hcurrent'.symm)
  · rw [hcurrent', hself]
    exact herrands.of_frame rfl rfl rfl rfl rfl

theorem setPool_other {k : Nat} {p : Pool Survey} (h : Dispatched c₀ created asked pending c)
    (hk : k ≠ c.current) (hnone : p.jobs = []) :
    Dispatched c₀ created asked pending (c.setPool k p) := by
  refine ⟨fun j hj => ?_, ?_⟩
  · rw [Cache.pool_setPool]
    split
    · exact hnone
    · exact h.others j hj
  · have hself : (c.setPool k p).pool (c.setPool k p).current = c.pool c.current := by
      rw [Cache.pool_setPool, if_neg fun he => hk he.1.symm]
      rfl
    rw [hself]
    exact h.errands.of_frame rfl rfl rfl rfl rfl

theorem elapse (h : Dispatched c₀ created asked pending c) (hp : ∀ j, (c.pool j).Sound) (ms : Nat) :
    Dispatched c₀ created asked pending (c.elapse ms) := by
  refine ⟨fun j hj => ?_, ?_⟩
  · have hperm := Cache.jobs_elapse (hp j) ms
    rw [h.others j hj] at hperm
    exact hperm.eq_nil
  · exact (h.errands.perm (Cache.jobs_elapse (hp c.current) ms).symm).of_frame rfl rfl rfl rfl rfl

variable [RegionStore σ] {s s' : Scene σ}

/-- a step of a worker, whichever pool it belongs to -/
theorem labour {k : Nat} (h : Dispatched c₀ created asked pending c) (hf : Filed c)
    (hgoes : (c.pool c.current).cancelled = false) (hl : c.Labour k asked' c') :
    Dispatched c₀ created (asked ++ asked') pending c' := by
  by_cases hk : k = c.current
  · subst hk
    cases hl with
    | moved size jobs cancelled kept =>
      rw [kept hgoes] at jobs
      rw [List.append_nil]
      exact replace h.others rfl rfl size (h.errands.perm jobs)
    | @surveyed n v rest r d p size jobs does whole cancelled goesOn ends =>
      have hown := h.errands.perm jobs
      have hprogress := does.progress (hown.present v List.mem_cons_self) (fun _ => hown.head) hgoes
        whole
      rcases hown.progress hf hprogress with ⟨v', he, hnext⟩ | ⟨he, hnext⟩
      · exact replace h.others does.pools does.frame.2.2.2.2.1 size (hnext.perm (goesOn v' he).symm)
      · exact replace h.others does.pools does.frame.2.2.2.2.1 size (hnext.perm (ends he).symm)
  · -- the others have no jobs, so they make no step but a move
    cases hl with
    | moved size jobs cancelled kept =>
      rw [h.others k hk] at jobs
      rw [List.append_nil]
      exact h.setPool_other hk (List.append_eq_nil_iff.mp jobs.nil_eq.symm).2
    | surveyed size jobs =>
      rw [h.others k hk] at jobs
      exact absurd jobs.nil_eq (List.cons_ne_nil _ _).symm

omit [RegionStore σ] in
theorem submit {denied : Bool} {p : Pool Survey} (h : Dispatched c₀ created asked (batch ++ pending) s.cache)
    (hc : Custody s)
    (taken : (s.cache.pool s.cache.current).submit
      { epoch := s.cache.epoch, columns := batch } denied = (.ok (), p)) :
    Dispatched c₀ created asked pending (s.cache.setPool s.cache.current p) := by
  have hsub := Pool.submitted (s.cache.pool s.cache.current) ⟨s.cache.epoch, batch, .checking⟩ denied
  rw [taken] at hsub
  exact replace h.others rfl rfl hc.current
    (h.errands.submit.perm (hsub.jobs_perm hc.accepting).symm)

omit [RegionStore σ] in
theorem call (h : Dispatched c₀ created asked [] c) (hf : Filed c) (columns : List Column) :
    Dispatched c₀ (created ++ c.newcomers columns) asked (c.newcomers columns)
      (c.insertAllMissing columns).2 := by
  obtain ⟨hstore, -, hepoch, hpools, hcurrent, -⟩ := c.insertAllMissing_frame columns
  have hl := learnt hf columns
  rw [Cache.newcomers_eq] at hl
  refine ⟨fun j hj => ?_, ?_⟩
  · rw [Cache.pool_congr hpools]
    exact h.others j (hcurrent ▸ hj)
  · rw [hcurrent, Cache.pool_congr hpools]
    refine h.errands.call hl hstore hepoch (c.counters_insertAllMissing columns) fun column i hi => ?_
    refine Cache.insertAllMissing_induct (P := fun d => d.sheetOf? column = some i)
      (fun d other hd => ?_) hi columns
    cases hk : d.sheetOf? other with
    | some j =>
      rw [Cache.insertMissing_of_known (by rw [hk]; rfl)]
      exact hd
    | none =>
      rw [Cache.insertMissing_of_missing hk, Cache.sheetOf?_insert, if_neg]
      · exact hd
      · rintro rfl
        rw [hk] at hd
        cases hd

end Dispatched
end

end Precinct
