import Mathlib
import Precinct.Proofs.Cache.Prompt

/-!
# The work that is left of a deed

A deed that schedules work leaves a list of columns: first to be submitted, then with surveys, and
none of them twice.

* `Learnt`             what it comes to that columns become known;
* `todo`               the columns that are left;
* `Owed`               they are the known columns that are not loaded.  Each will be counted once as
                       loaded, and the store will be asked for it once, or was already by the survey
                       that is about to publish the answer;
* `Survey.Progress`    what a step of a survey comes to while nothing is in its way, and `Cache.Labour`
                       a step of a worker, seen from the jobs of its pool;
* `Surveyed.owed`      a step of a survey keeps up what is owed, whatever the batches are;
* `Underway`           all of the work is with one pool, or is going to be;
* `Underway.aside`     **the workers do what is left to be done**, in whatever order;
* `Underway.settled`   when they have no survey left, nothing is left to be done.

Two surveys of one column could ask the store twice for the one sheet.  That no column is in two
batches, and that none is scheduled before the work of the last deed is done, is all that prevents it.
-/

namespace Precinct
open List (Perm)

/-- it has asked the store and has not published the answer yet -/
def Survey.asks (v : Survey) : Bool :=
  match v.phase with
  | .querying _ | .publishing _ _ => true
  | .checking | .seeking | .examining _ => false

/-- the column about which its next step asks the store, if it does -/
def Survey.inquires {σ : Type} (c : Cache σ) (v : Survey) : List Column :=
  match v.phase with
  | .examining i => if (c.sheet i).isLoaded then [] else v.columns.head?.toList
  | .checking | .seeking | .querying _ | .publishing _ _ => []

/-- the columns that are left, to be submitted or with a survey -/
def todo (pending : List Column) (jobs : List Survey) : List Column :=
  pending ++ jobs.flatMap Survey.columns

/-- it knows where the columns it has in hand belong -/
def Survey.Present {σ : Type} (c : Cache σ) (v : Survey) : Prop :=
  v.epoch = c.epoch ∧ ∀ i, v.phase.sheet? = some i →
    ∃ column, v.columns.head? = some column ∧ c.sheetOf? column = some i

/-- what a step of a survey comes to while nothing is in its way: the pool was not cancelled, its columns
are known and not loaded, and the store answers -/
inductive Survey.Progress {σ : Type} (c : Cache σ) (v : Survey) : SurveyResult → Cache σ → Prop
  /-- it goes on with the same columns, neither in the store nor out of it -/
  | looks {v' : Survey} {c' : Cache σ} (columns : v'.columns = v.columns) (asks : v'.asks = v.asks)
      (present : v'.Present c) (epoch : c'.epoch = c.epoch) (known : c'.columns = c.columns)
      (sheets : c'.sheets = c.sheets) (counters : c'.counters = c.counters)
      (calls : c'.store.intersectingCalls = c.store.intersectingCalls)
      (silent : v.inquires c = []) : Progress c v (.goesOn v') c'
  /-- it asks the store about the first of its columns -/
  | enters {v' : Survey} {column : Column} {caller : Caller} (head : v.columns.head? = some column)
      (columns : v'.columns = v.columns) (before : v.asks = false) (asks : v'.asks = true)
      (present : v'.Present c) (inquires : v.inquires c = [column]) :
      Progress c v (.goesOn v') { c with store := c.store.enter caller }
  /-- it loads the first of its columns, and goes on with the others -/
  | publishes {column : Column} {i : Nat} {regions : List Region}
      (head : v.columns.head? = some column) (asks : v.asks = true)
      (sheet : c.sheetOf? column = some i) (unloaded : (c.sheet i).regions = none)
      (silent : v.inquires c = []) : Progress c v (.goesOn v.next) (c.publishSheet i regions)
  | ends (none : v.columns = []) (asks : v.asks = false) (silent : v.inquires c = []) :
      Progress c v .ends c

/-- the column about which a step of a worker asks the store, if it does -/
def Cache.inquires {σ : Type} (c : Cache σ) (k number : Nat) : WorkerStep → List Column
  | .move _ => []
  | .survey =>
    match ((c.pool k).worker? number).map Worker.phase with
    | some (.running v) => v.inquires c
    | _ => []

/-- what a step of a worker that loses no survey comes to, told by the jobs of its pool and the column
about which the store is asked -/
inductive Cache.Labour {σ : Type} [RegionStore σ] (c : Cache σ) (k : Nat) :
    List Column → Cache σ → Prop
  | moved {p : Pool Survey} {lost : List Survey} (size : k < c.pools.size)
      (jobs : Perm (c.pool k).jobs (lost ++ p.jobs))
      (cancelled : p.cancelled = (c.pool k).cancelled)
      (kept : (c.pool k).cancelled = false → lost = []) : Labour c k [] (c.setPool k p)
  | surveyed {n : Nat} {v : Survey} {rest : List Survey} {r : SurveyResult} {d : Cache σ}
      {p : Pool Survey} (size : k < c.pools.size) (jobs : Perm (c.pool k).jobs (v :: rest))
      (does : Cache.Surveyed c k n v r d) (whole : r ≠ .breaksOff)
      (cancelled : p.cancelled = (c.pool k).cancelled)
      (goesOn : ∀ v', r = .goesOn v' → Perm p.jobs (v' :: rest))
      (ends : r = .ends → Perm p.jobs rest) : Labour c k (v.inquires c) (d.setPool k p)

/-- the columns that are left are those known but not loaded, and each is still to be counted -/
structure Owed {σ : Type} (P : Prompt) (pending : List Column) (jobs : List Survey) (c : Cache σ) :
    Prop where
  present : ∀ v ∈ jobs, v.Present c
  nodup : (todo pending jobs).Nodup
  mem : ∀ column, column ∈ todo pending jobs ↔
    (c.sheetOf? column).isSome = true ∧ c.isLoaded column = false
  loaded : c.counters.columnsLoaded + (todo pending jobs).length = P.loaded
  calls : c.store.intersectingCalls + (todo pending jobs).length =
    P.intersecting + jobs.countP Survey.asks

/-- all of the work is with one pool, or is going to be -/
structure Underway {σ : Type} [RegionStore σ] [Tabled σ] (P : Prompt) (k : Nat)
    (pending : List Column) (c : Cache σ) : Prop extends Resembles P c where
  others : ∀ j ≠ k, (c.pool j).jobs = []
  goes : (c.pool k).cancelled = true → (c.pool k).jobs = []
  owed : Owed P pending (c.pool k).jobs c

/-- what it comes to that columns become known -/
structure Learnt {σ : Type} (c : Cache σ) (columns created : List Column) (c' : Cache σ) : Prop where
  nodup : created.Nodup
  mem : ∀ column, column ∈ created ↔ column ∈ columns ∧ c.sheetOf? column = none
  known : ∀ column, (c'.sheetOf? column).isSome = true ↔
    column ∈ columns ∨ (c.sheetOf? column).isSome = true
  isLoaded : ∀ column, c'.isLoaded column = c.isLoaded column
  size : c'.columns.size = c.columns.size + created.length

section
variable {σ : Type} {c c' : Cache σ} {column : Column}

/-! ## columns become known -/

theorem isLoaded_insert (hf : Filed c) (h : c.sheetOf? column = none) (other : Column) :
    Cache.isLoaded { c with
      columns := (c.columns.insert column c.sheets.size).2
      sheets := c.sheets.insert c.sheets.size { column } } other = c.isLoaded other := by
  rw [Cache.isLoaded, Cache.isLoaded, Cache.sheetOf?_insert]
  split
  · rename_i he
    rw [← he, h, Option.any_some]
    show ((c.sheets.insert c.sheets.size { column }).getD c.sheets.size default).isLoaded = _
    rw [Cache.getD_insert_sheet, if_pos rfl]
    rfl
  · cases hi : c.sheetOf? other with
    | none => rfl
    | some i =>
      rw [Option.any_some, Option.any_some, Cache.sheet_insert_of_lt (hf.columns other i hi).1]

/-- **What it comes to that columns become known**: each that was not is made known once. -/
theorem learnt (hf : Filed c) (columns : List Column) :
    Learnt c columns (c.insertAllMissing columns).1 (c.insertAllMissing columns).2 := by
  induction columns generalizing c with
  | nil =>
    exact ⟨List.nodup_nil, by simp [Cache.insertAllMissing], by simp [Cache.insertAllMissing],
      fun _ => rfl, rfl⟩
  | cons first rest ih =>
    have hrest := ih (hf.insertMissing first)
    show Learnt c (first :: rest)
      (if (c.insertMissing first).1 then
        first :: ((c.insertMissing first).2.insertAllMissing rest).1
      else ((c.insertMissing first).2.insertAllMissing rest).1) _
    rw [show (c.insertAllMissing (first :: rest)).2 =
      ((c.insertMissing first).2.insertAllMissing rest).2 from rfl]
    cases hk : c.sheetOf? first with
    | some i =>
      rw [Cache.insertMissing_of_known (by rw [hk]; rfl)] at hrest ⊢
      rw [if_neg Bool.false_ne_true]
      refine ⟨hrest.nodup, fun column => ?_, fun column => ?_, hrest.isLoaded, hrest.size⟩
      · rw [hrest.mem, List.mem_cons]
        refine and_congr_left fun hnone => ⟨Or.inr, fun h => h.resolve_left ?_⟩
        rintro rfl
        rw [hk] at hnone
        cases hnone
      · rw [hrest.known, List.mem_cons]
        refine ⟨fun h => h.imp Or.inr id, ?_⟩
        rintro ((rfl | h) | h)
        · exact Or.inr (by rw [hk]; rfl)
        · exact Or.inl h
        · exact Or.inr h
    | none =>
      -- it is known from here on, so if it comes again it is not created again
      rw [Cache.insertMissing_of_missing hk] at hrest ⊢
      have hnone : ∀ column, Cache.sheetOf? { c with
          columns := (c.columns.insert first c.sheets.size).2
          sheets := c.sheets.insert c.sheets.size { column := first } } column = none ↔
          first ≠ column ∧ c.sheetOf? column = none := by
        intro column
        rw [Cache.sheetOf?_insert]
        by_cases he : first = column
        · simp [he]
        · simp [he]
      have hsize := c.columns.size_insert first c.sheets.size hk
      rw [if_pos rfl]
      refine ⟨List.nodup_cons.mpr ⟨fun hmem => ?_, hrest.nodup⟩, fun column => ?_, fun column => ?_,
        fun column => (hrest.isLoaded column).trans (isLoaded_insert hf hk column), ?_⟩
      · exact ((hnone first).mp ((hrest.mem first).mp hmem).2).1 rfl
      · rw [List.mem_cons, List.mem_cons, hrest.mem, hnone]
        by_cases he : column = first
        · simp [he, hk]
        · simp [he, Ne.symm he]
      · rw [hrest.known, List.mem_cons, Cache.sheetOf?_insert]
        by_cases he : column = first
        · simp [he]
        · simp [he, Ne.symm he]
      · have := hrest.size
        rw [List.length_cons]
        show _ = c.columns.size + (_ + 1)
        rw [this]
        show (c.columns.insert first c.sheets.size).2.size + _ = _
        omega

/-! ## what is owed -/

variable {P : Prompt} {pending pending' : List Column} {jobs jobs' rest : List Survey} {v v' : Survey}
  {k n : Nat} {r : SurveyResult}

/-- without a sheet in hand there is nothing to know of one -/
theorem Survey.present_of_none (hepoch : v.epoch = c.epoch) (hnone : v.phase.sheet? = none) :
    v.Present c := by
  refine ⟨hepoch, fun i hi => ?_⟩
  rw [hnone] at hi
  cases hi

theorem Survey.Present.of_frame (h : v.Present c) (hepoch : c'.epoch = c.epoch)
    (hcolumns : c'.columns = c.columns) : v.Present c' := by
  refine ⟨h.1.trans hepoch.symm, fun i hi => ?_⟩
  obtain ⟨column, head, hof⟩ := h.2 i hi
  exact ⟨column, head, (Cache.sheetOf?_congr hcolumns column).trans hof⟩

theorem Owed.of_frame (h : Owed P pending jobs c) (hepoch : c'.epoch = c.epoch)
    (hcolumns : c'.columns = c.columns) (hsheets : c'.sheets = c.sheets)
    (hloaded : c'.counters.columnsLoaded = c.counters.columnsLoaded)
    (hcalls : c'.store.intersectingCalls = c.store.intersectingCalls) : Owed P pending jobs c' where
  present v hv := (h.present v hv).of_frame hepoch hcolumns
  nodup := h.nodup
  mem column := by
    rw [Cache.sheetOf?_congr hcolumns, Cache.isLoaded_congr hcolumns hsheets]
    exact h.mem column
  loaded := by rw [hloaded, h.loaded]
  calls := by rw [hcalls, h.calls]

/-- the columns that are left are the same, whoever has them -/
theorem Owed.rearrange (h : Owed P pending jobs c) (hpresent : ∀ v ∈ jobs', v.Present c)
    (hperm : Perm (todo pending jobs) (todo pending' jobs'))
    (hasks : jobs'.countP Survey.asks = jobs.countP Survey.asks) : Owed P pending' jobs' c where
  present := hpresent
  nodup := hperm.nodup_iff.mp h.nodup
  mem column := by rw [← hperm.mem_iff, h.mem]
  loaded := by rw [← hperm.length_eq, h.loaded]
  calls := by rw [← hperm.length_eq, h.calls, hasks]

theorem Owed.perm (h : Owed P pending jobs c) (hperm : Perm jobs jobs') : Owed P pending jobs' c :=
  h.rearrange (fun v hv => h.present v (hperm.mem_iff.mpr hv))
    ((hperm.flatMap_right _).append_left pending) (hperm.countP_eq _).symm

/-- the first of several batches is submitted -/
theorem Owed.submit {batch : List Column} (h : Owed P (batch ++ pending) jobs c) :
    Owed P pending ({ epoch := c.epoch, columns := batch } :: jobs) c := by
  refine h.rearrange (fun v hv => ?_) ?_ ?_
  · rcases List.mem_cons.mp hv with rfl | hv
    · exact Survey.present_of_none rfl rfl
    · exact h.present v hv
  · rw [todo, todo, List.flatMap_cons, ← List.append_assoc]
    exact List.perm_append_comm.append_right _
  · exact List.countP_cons_of_neg Bool.false_ne_true

/-- a column that a survey has before it is known and not loaded -/
theorem Owed.head (h : Owed P pending (v :: rest) c) (head : v.columns.head? = some column) :
    (c.sheetOf? column).isSome = true ∧ c.isLoaded column = false := by
  refine (h.mem column).mp (List.mem_append_right pending ?_)
  rw [List.flatMap_cons, List.eq_cons_of_mem_head? head]
  exact List.mem_append_left _ List.mem_cons_self

/-- the survey goes on with the same columns, neither in the store nor out of it -/
theorem Owed.replace (h : Owed P pending (v :: rest) c) (hpresent : v'.Present c)
    (hcolumns : v'.columns = v.columns) (hasks : v'.asks = v.asks) :
    Owed P pending (v' :: rest) c := by
  refine h.rearrange (fun u hu => ?_) ?_ ?_
  · rcases List.mem_cons.mp hu with rfl | hu
    · exact hpresent
    · exact h.present u (List.mem_cons_of_mem v hu)
  · rw [todo, todo, List.flatMap_cons, List.flatMap_cons, hcolumns]
  · rw [List.countP_cons, List.countP_cons, hasks]

theorem Cache.epoch_publishSheet (c : Cache σ) (i : Nat) (regions : List Region) :
    (c.publishSheet i regions).epoch = c.epoch := by
  unfold Cache.publishSheet
  dsimp only
  split <;> rfl

theorem counters_publishSheet {i : Nat} (h : (c.sheet i).regions = none) (regions : List Region) :
    (c.publishSheet i regions).counters =
      { c.counters with columnsLoaded := c.counters.columnsLoaded + 1 } := by
  have hfirst : ((c.sheet i).publish regions).1 = true := by rw [Sheet.publish, h]
  rw [Cache.publishSheet, hfirst]
  rfl

/-- a column is loaded by the survey that has its sheet in hand, and no other column is -/
theorem isLoaded_publishSheet (hf : Filed c) {i : Nat} (hof : c.sheetOf? column = some i)
    (regions : List Region) (other : Column) :
    (c.publishSheet i regions).isLoaded other = (decide (other = column) || c.isLoaded other) := by
  rw [Cache.isLoaded, Cache.isLoaded, Cache.sheetOf?_publishSheet]
  by_cases he : other = column
  · rw [he, hof, Option.any_some, Cache.sheet_publishSheet, if_pos rfl, Sheet.isLoaded,
      Sheet.regions_publish]
    simp
  · rw [decide_eq_false he, Bool.false_or]
    cases hj : c.sheetOf? other with
    | none => rfl
    | some j =>
      have hne : j ≠ i := by
        rintro rfl
        exact he ((hf.columns other j hj).2.symm.trans (hf.columns column j hof).2)
      rw [Option.any_some, Option.any_some, Cache.sheet_publishSheet, if_neg hne]

theorem Owed.publish (h : Owed P pending (v :: rest) c) (hf : Filed c)
    (head : v.columns.head? = some column) (hasks : v.asks = true) {i : Nat}
    (hof : c.sheetOf? column = some i) (hnone : (c.sheet i).regions = none) (regions : List Region) :
    Owed P pending (v.next :: rest) (c.publishSheet i regions) := by
  obtain ⟨hstore, -, hcolumns, -⟩ := c.publishSheet_frame i regions
  have hperm : Perm (todo pending (v :: rest)) (column :: todo pending (v.next :: rest)) := by
    rw [todo, List.flatMap_cons, List.eq_cons_of_mem_head? head]
    exact List.perm_middle
  have hlength := hperm.length_eq
  rw [List.length_cons] at hlength
  have hnodup := List.nodup_cons.mp (hperm.nodup_iff.mp h.nodup)
  have hepoch := c.epoch_publishSheet i regions
  refine ⟨fun u hu => ?_, hnodup.2, fun other => ?_, ?_, ?_⟩
  · rcases List.mem_cons.mp hu with rfl | hu
    · exact Survey.present_of_none ((h.present v List.mem_cons_self).1.trans hepoch.symm) rfl
    · exact (h.present u (List.mem_cons_of_mem v hu)).of_frame hepoch hcolumns
  · have hmem := hperm.mem_iff (a := other)
    rw [h.mem, List.mem_cons] at hmem
    rw [Cache.sheetOf?_publishSheet, isLoaded_publishSheet hf hof]
    by_cases he : other = column
    · rw [he]
      simp [hnodup.1]
    · rw [decide_eq_false he, Bool.false_or, hmem]
      simp [he]
  · have := h.loaded
    rw [counters_publishSheet hnone]
    show c.counters.columnsLoaded + 1 + _ = _
    omega
  · have hcalls := h.calls
    rw [List.countP_cons_of_pos hasks] at hcalls
    rw [hstore, List.countP_cons_of_neg Bool.false_ne_true]
    omega

/-! ## surveys -/

variable [RegionStore σ] [Tabled σ] {s s' : Scene σ}

omit [RegionStore σ] [Tabled σ] in
theorem Survey.Present.asks (h : v.Present c) (hnil : v.columns = []) : v.asks = false := by
  -- without a column it has no sheet in hand, so it is not in the store
  by_contra hasks
  have hsheet : ∃ i, v.phase.sheet? = some i := by
    unfold Survey.asks at hasks
    split at hasks
    · rename_i i phase
      exact ⟨i, by rw [phase]; rfl⟩
    · rename_i i regions phase
      exact ⟨i, by rw [phase]; rfl⟩
    all_goals exact absurd rfl hasks
  obtain ⟨i, hi⟩ := hsheet
  obtain ⟨column, head, -⟩ := h.2 i hi
  rw [hnil] at head
  cases head

omit [RegionStore σ] [Tabled σ] in
/-- the sheet in hand is that of the first column -/
theorem Survey.Present.sheet (h : v.Present c) (head : v.columns.head? = some column)
    (hunloaded : c.isLoaded column = false) {i : Nat} (hi : v.phase.sheet? = some i) :
    c.sheetOf? column = some i ∧ (c.sheet i).regions = none := by
  obtain ⟨other, head', hof⟩ := h.2 i hi
  rw [head] at head'
  cases head'
  rw [Cache.isLoaded, hof, Option.any_some, Sheet.isLoaded] at hunloaded
  exact ⟨hof, Option.not_isSome_iff_eq_none.mp (Bool.eq_false_iff.mp hunloaded)⟩

omit [Tabled σ] in
/-- **A step of a survey that nothing is in the way of.** -/
theorem Cache.Surveyed.progress (hs : Cache.Surveyed c k n v r c') (hpresent : v.Present c)
    (hhead : ∀ column, v.columns.head? = some column →
      (c.sheetOf? column).isSome = true ∧ c.isLoaded column = false)
    (hgoes : (c.pool k).cancelled = false) (hr : r ≠ .breaksOff) : v.Progress c r c' := by
  have hepoch := hpresent.1
  cases hs with
  | empty none =>
    refine .ends none (hpresent.asks none) ?_
    rw [Survey.inquires, none]
    split
    · exact ite_self _
    all_goals rfl
  | stopped head phase stop =>
    rw [hgoes] at stop
    cases stop
  | checked head phase goes =>
    exact .looks rfl (by rw [Survey.asks, Survey.asks, phase]) (Survey.present_of_none hepoch rfl)
      rfl rfl rfl rfl rfl (by rw [Survey.inquires, phase])
  | missing head phase none =>
    have hknown := (hhead _ head).1
    rw [Cache.sheetFor?, if_pos hepoch.symm] at none
    rw [none] at hknown
    cases hknown
  | found head phase sheet =>
    refine .looks rfl (by rw [Survey.asks, Survey.asks, phase]) ⟨hepoch, fun j hj => ?_⟩
      rfl rfl rfl rfl rfl (by rw [Survey.inquires, phase])
    cases hj
    exact ⟨_, head, (Cache.sheetFor?_eq_some sheet).2⟩
  | loaded head phase yes =>
    obtain ⟨-, hnone⟩ := hpresent.sheet head (hhead _ head).2 (by rw [phase]; rfl)
    rw [Sheet.isLoaded, hnone] at yes
    cases yes
  | entered head phase no =>
    refine .enters head rfl (by rw [Survey.asks, phase]) rfl ⟨hepoch, fun j hj => ?_⟩ ?_
    · exact hpresent.2 j (by rw [phase]; exact hj)
    · rw [Survey.inquires, phase]
      dsimp only
      rw [no, if_neg Bool.false_ne_true, head]
      rfl
  | failed head phase gives => exact absurd rfl hr
  | collected head phase gives =>
    exact .looks rfl (by rw [Survey.asks, Survey.asks, phase])
      ⟨hepoch, fun j hj => hpresent.2 j (by rw [phase]; exact hj)⟩ rfl rfl rfl rfl
      (Watched.calls_collect gives) (by rw [Survey.inquires, phase])
  | published head phase =>
    obtain ⟨hof, hnone⟩ := hpresent.sheet head (hhead _ head).2 (by rw [phase]; rfl)
    exact .publishes head (by rw [Survey.asks, phase]) hof hnone (by rw [Survey.inquires, phase])

omit [Tabled σ] in
/-- **A step of a survey that nothing goes wrong with** leaves to be done what it did not do itself. -/
theorem Cache.Surveyed.owed (hs : Cache.Surveyed c k n v r c') (h : Owed P pending (v :: rest) c)
    (hf : Filed c) (hgoes : (c.pool k).cancelled = false) (hr : r ≠ .breaksOff) :
    (∃ v', r = .goesOn v' ∧ Owed P pending (v' :: rest) c') ∨
      r = .ends ∧ Owed P pending rest c' := by
  cases hs.progress (h.present v List.mem_cons_self) (fun _ => h.head) hgoes hr with
  | looks columns asks present epoch known sheets counters calls =>
    exact Or.inl ⟨_, rfl,
      (h.replace present columns asks).of_frame epoch known sheets (by rw [counters]) calls⟩
  | @enters v' column caller head columns before asks present =>
    -- the store is asked, which it was going to be
    have hcalls := h.calls
    rw [List.countP_cons_of_neg (by rw [before]; exact Bool.false_ne_true)] at hcalls
    have htodo : todo pending (v' :: rest) = todo pending (v :: rest) := by
      rw [todo, todo, List.flatMap_cons, List.flatMap_cons, columns]
    refine Or.inl ⟨_, rfl, ⟨fun u hu => ?_, ?_, ?_, ?_, ?_⟩⟩
    · rcases List.mem_cons.mp hu with rfl | hu
      · exact present
      · exact h.present u (List.mem_cons_of_mem v hu)
    · rw [htodo]
      exact h.nodup
    · rw [htodo]
      exact h.mem
    · rw [htodo]
      exact h.loaded
    · rw [htodo, List.countP_cons_of_pos asks]
      show c.store.intersectingCalls + 1 + (todo pending (v :: rest)).length = _
      omega
  | publishes head asks sheet unloaded =>
    exact Or.inl ⟨_, rfl, h.publish hf head asks sheet unloaded _⟩
  | ends none asks =>
    refine Or.inr ⟨rfl, h.rearrange (fun u hu => h.present u (List.mem_cons_of_mem v hu)) ?_ ?_⟩
    · rw [todo, todo, List.flatMap_cons, none, List.nil_append]
    · exact (List.countP_cons_of_neg (by rw [asks]; exact Bool.false_ne_true)).symm

/-- a survey that nothing goes wrong with changes no more than sheets and what is counted of them -/
theorem Cache.Surveyed.resembles (hs : Cache.Surveyed c k n v r c') (h : Resembles P c)
    (hgoes : (c.pool k).cancelled = false) : Resembles P c' := by
  cases hs with
  | stopped head phase stop =>
    rw [hgoes] at stop
    cases stop
  | failed head phase gives =>
    obtain ⟨htable, hcontaining, -⟩ := Watched.collect_frame gives
    exact h.of_frame htable rfl rfl hcontaining
  | collected head phase gives =>
    obtain ⟨htable, hcontaining, -⟩ := Watched.collect_frame gives
    exact h.of_frame htable rfl rfl hcontaining
  | entered head phase no => exact h.of_frame rfl rfl rfl rfl
  | @published column i regions head phase =>
    unfold Cache.publishSheet
    dsimp only
    split
    · exact ⟨h.table, h.known, h.size, h.hits, h.fallbacks, h.renewals, h.cancelled, h.containing⟩
    · exact ⟨h.table, h.known, h.size, h.hits, h.fallbacks, h.renewals, h.cancelled, h.containing⟩
  | _ => exact h

/-! ## workers -/

theorem Underway.of_pools (h : Underway P k pending c) (hstore : c'.store = c.store)
    (hcolumns : c'.columns = c.columns) (hsheets : c'.sheets = c.sheets)
    (hcounters : c'.counters = c.counters) (hepoch : c'.epoch = c.epoch)
    (hothers : ∀ j ≠ k, (c'.pool j).jobs = [])
    (hcancelled : (c'.pool k).cancelled = (c.pool k).cancelled)
    (hjobs : Perm (c.pool k).jobs (c'.pool k).jobs) : Underway P k pending c' where
  toResembles := h.toResembles.of_frame (by rw [hstore]) hcolumns hcounters (by rw [hstore])
  others := hothers
  goes hc := by
    rw [h.goes (hcancelled ▸ hc)] at hjobs
    exact hjobs.symm.eq_nil
  owed := (h.owed.perm hjobs).of_frame hepoch hcolumns hsheets (by rw [hcounters]) (by rw [hstore])

theorem Underway.setPool {d : Cache σ} {p : Pool Survey} (hothers : ∀ j ≠ k, (c.pool j).jobs = [])
    (hsize : k < c.pools.size) (hpools : d.pools = c.pools) (hd : Resembles P d)
    (howed : Owed P pending p.jobs d) (hgoes : p.cancelled = true → p.jobs = []) :
    Underway P k pending (d.setPool k p) := by
  have hself : (d.setPool k p).pool k = p := by
    rw [Cache.pool_setPool_of_pools hpools, if_pos ⟨rfl, hsize⟩]
  refine ⟨hd.of_frame rfl rfl rfl rfl, fun j hj => ?_, by rw [hself]; exact hgoes, ?_⟩
  · rw [Cache.pool_setPool_of_pools hpools, if_neg fun he => hj he.1]
    exact hothers j hj
  · rw [hself]
    exact howed.of_frame rfl rfl rfl rfl rfl

theorem Underway.not_cancelled (h : Underway P k pending c) (hv : v ∈ (c.pool k).jobs) :
    (c.pool k).cancelled = false := by
  rw [Bool.eq_false_iff]
  intro hc
  rw [h.goes hc] at hv
  exact absurd hv List.not_mem_nil

omit [Tabled σ] in
/-- **What a step of a worker comes to** if it loses no survey. -/
theorem Cache.Worked.labour {w : WorkerStep} (hp : (c.pool k).Sound)
    (hwork : Cache.Worked c k n w c') (hkept : c.breaksOff k n w = false) :
    c.Labour k (c.inquires k n w) c' := by
  have hinquires : ∀ {w : Worker Survey} {v : Survey}, (c.pool k).worker? n = some w →
      w.phase = .running v → c.inquires k n .survey = v.inquires c := by
    intro w v hworker hphase
    rw [Cache.inquires, hworker, Option.map_some, hphase]
  have hsize : ∀ {w : Worker Survey}, (c.pool k).worker? n = some w → k < c.pools.size := by
    intro w hworker
    refine Cache.lt_size_of_pool fun hd => ?_
    rw [hd] at hworker
    cases hworker
  cases hwork with
  | @moved m p makes =>
    obtain ⟨w, -, hw, hm⟩ := Pool.moved_of_step? hp.nodup makes
    obtain ⟨lost, hperm, hlost⟩ := hm.jobs_perm hw
    have hsize : k < c.pools.size := Cache.lt_size_of_pool fun hd => by
      rw [hd] at hw
      exact absurd hw.nil_eq (List.cons_ne_nil _ _).symm
    exact .moved hsize hperm hm.frame.2.2 fun hgoes => hlost (Or.inl hgoes)
  | goesOn worker phase does =>
    obtain ⟨rest, hbefore, hgoesOn, -⟩ := Pool.exists_other_jobs hp worker phase
    rw [hinquires worker phase]
    refine .surveyed (hsize worker) hbefore does nofun rfl (fun v' he => ?_) nofun
    cases he
    exact hgoesOn _
  | ends worker phase does =>
    obtain ⟨rest, hbefore, -, hends⟩ := Pool.exists_other_jobs hp worker phase
    rw [hinquires worker phase]
    exact .surveyed (hsize worker) hbefore does nofun rfl nofun fun _ => hends
  | breaksOff worker phase does lost =>
    rw [hkept] at lost
    cases lost

/-- the pool that has the work goes on with it -/
theorem Underway.worked_self {w : WorkerStep} (h : Underway P k pending c) (hf : Filed c)
    (hp : (c.pool k).Sound) (hwork : Cache.Worked c k n w c') (hkept : c.breaksOff k n w = false) :
    Underway P k pending c' := by
  have hlabour := hwork.labour hp hkept
  generalize c.inquires k n w = asked at hlabour
  cases hlabour with
  | @moved p lost size jobs cancelled kept =>
    have hgoes : p.cancelled = true → p.jobs = [] := fun hc => by
      rw [h.goes (cancelled ▸ hc)] at jobs
      exact (List.append_eq_nil_iff.mp jobs.nil_eq.symm).2
    refine .setPool h.others size rfl h.toResembles (h.owed.perm ?_) hgoes
    cases hc : (c.pool k).cancelled with
    | true =>
      rw [h.goes hc, hgoes (cancelled.trans hc)]
    | false =>
      rw [kept hc] at jobs
      exact jobs
  | surveyed size jobs does whole cancelled goesOn ends =>
    have hgoes := h.not_cancelled (jobs.symm.subset List.mem_cons_self)
    have hd := does.resembles h.toResembles hgoes
    rcases does.owed (h.owed.perm jobs) hf hgoes whole with ⟨v', he, ho⟩ | ⟨he, ho⟩
    · exact .setPool h.others size does.pools hd (ho.perm (goesOn v' he).symm) fun hc =>
        nomatch (cancelled ▸ hc).symm.trans hgoes
    · exact .setPool h.others size does.pools hd (ho.perm (ends he).symm) fun hc =>
        nomatch (cancelled ▸ hc).symm.trans hgoes

/-- the others are idle -/
theorem Underway.worked_other {j : Nat} {w : WorkerStep} (h : Underway P k pending c) (hj : j ≠ k)
    (hp : (c.pool j).Sound) (hwork : Cache.Worked c j n w c') : Underway P k pending c' := by
  rcases hwork.cases with ⟨m, p, makes, rfl⟩ | ⟨v, r, d, hruns, -, -⟩
  · have hadvance : (c.pool j).Advance p := .move makes
    have hself : (c.setPool j p).pool k = c.pool k := by
      rw [Cache.pool_setPool, if_neg fun he => hj he.1.symm]
    refine h.of_pools rfl rfl rfl rfl rfl (fun i hi => ?_) (by rw [hself]) (by rw [hself])
    rw [Cache.pool_setPool]
    split
    · exact hadvance.jobs_nil hp (h.others j hj)
    · exact h.others i hi
  · have hjob := hruns.mem_jobs
    rw [h.others j hj] at hjob
    exact absurd hjob List.not_mem_nil

theorem Underway.elapse (h : Underway P k pending c) (hp : ∀ j, (c.pool j).Sound) (ms : Nat) :
    Underway P k pending (c.elapse ms) := by
  refine h.of_pools rfl rfl rfl rfl rfl (fun j hj => ?_) ?_ (Cache.jobs_elapse (hp k) ms).symm
  · have hperm := Cache.jobs_elapse (hp j) ms
    rw [h.others j hj] at hperm
    exact hperm.eq_nil
  · rcases c.pool_elapse ms k with he | he
    · rw [he]
    · obtain ⟨-, -, hcancelled, -⟩ := Pool.elapse_frame _ (hp k) ms
      rw [he, hcancelled]

/-- **Steps that are not the host's do what is left to be done**, and nothing else. -/
theorem Underway.aside (h : Underway P k pending s.cache) (hf : Filed s.cache)
    (hp : ∀ j, (s.cache.pool j).Sound) (hs : Aside s s') (hm : s'.mishap = false) :
    Underway P k pending s'.cache := by
  have hstore : ∀ {w : Watched σ}, Tabled.table w.store = Tabled.table s.cache.store.store →
      w.containingCalls = s.cache.store.containingCalls →
      w.intersectingCalls = s.cache.store.intersectingCalls →
      Underway P k pending { s.cache with store := w } := fun htable hcontaining hcalls =>
    ⟨h.toResembles.of_frame htable rfl rfl hcontaining, h.others, h.goes,
      h.owed.of_frame rfl rfl rfl rfl hcalls⟩
  cases hs with
  | closeGate => exact hstore rfl rfl rfl
  | openGate => exact hstore rfl rfl rfl
  | failNext => exact hstore rfl rfl rfl
  | @work j number w c makes =>
    have hwork := Cache.worked_of_step? makes
    by_cases hj : j = k
    · subst hj
      exact h.worked_self hf (hp j) hwork (Bool.or_eq_false_iff.mp hm).2
    · exact h.worked_other hj (hp j) hwork
  | elapse ms => exact h.elapse hp ms

/-! ## where the work begins and ends -/

/-- **When no survey is left nothing is left to be done.** -/
theorem Underway.settled (h : Underway P k [] c) (hnone : (c.pool k).jobs = []) : Settled P c := by
  have howed := h.owed
  rw [hnone] at howed
  refine ⟨h.toResembles, fun j => ?_, fun column hk => ?_, howed.loaded, howed.calls⟩
  · by_cases hj : j = k
    · rw [hj, hnone]
    · exact h.others j hj
  · by_contra hl
    exact absurd ((howed.mem column).mpr ⟨hk, Bool.eq_false_iff.mpr hl⟩) List.not_mem_nil

/-- all that becomes known is left to be done -/
theorem Settled.learns {columns created : List Column} (h : Settled P c)
    (hl : Learnt c columns created c') (hstore : c'.store = c.store) (hpools : c'.pools = c.pools)
    (hcounters : c'.counters = c.counters)
    (hpending : Perm created pending) (k : Nat) : Underway (P.after (.warm columns)) k pending c' := by
  have hidle : ∀ j, (c'.pool j).jobs = [] := fun j => by
    rw [Cache.pool_congr hpools]
    exact h.idle j
  have hcount : pending.length = (columns.toFinset \ P.known).card := by
    rw [← hpending.length_eq, ← List.toFinset_card_of_nodup hl.nodup]
    congr 1
    ext column
    rw [List.mem_toFinset, hl.mem, Finset.mem_sdiff, List.mem_toFinset, h.known,
      Option.not_isSome_iff_eq_none]
  refine ⟨⟨?_, fun column => ?_, ?_, ?_, ?_, ?_, ?_, ?_⟩, fun j _ => hidle j, fun _ => hidle k, ?_⟩
  · rw [hstore]; exact h.table
  · rw [hl.known, ← h.known, ← List.mem_toFinset]
    exact Finset.mem_union
  · show _ = (columns.toFinset ∪ P.known).card
    rw [hl.size, h.size, hpending.length_eq, hcount, ← Finset.card_sdiff_add_card, add_comm]
  · rw [hcounters]; exact h.hits
  · rw [hcounters]; exact h.fallbacks
  · rw [hcounters]; exact h.renewals
  · rw [hcounters]; exact h.cancelled
  · rw [hstore]; exact h.containing
  rw [hidle k]
  have htodo : todo pending [] = pending := List.append_nil _
  refine ⟨nofun, ?_, fun column => ?_, ?_, ?_⟩
  · rw [htodo]
    exact hpending.nodup_iff.mp hl.nodup
  · rw [htodo, ← hpending.mem_iff, hl.mem, hl.known, hl.isLoaded]
    constructor
    · rintro ⟨hmem, hnone⟩
      exact ⟨Or.inl hmem, by rw [Cache.isLoaded, hnone]; rfl⟩
    · rintro ⟨hknown, hunloaded⟩
      have hnone : c.sheetOf? column = none := by
        by_contra hsome
        rw [h.allLoaded column (Option.isSome_iff_ne_none.mpr hsome)] at hunloaded
        cases hunloaded
      refine ⟨hknown.resolve_right ?_, hnone⟩
      rw [hnone]
      exact Bool.false_ne_true
  · rw [htodo, hcounters, h.loaded, hcount]
    rfl
  · rw [htodo, hstore, h.calls, hcount]
    rfl

theorem Settled.warm (h : Settled P c) (hf : Filed c) (columns : List Column) (k : Nat) :
    Underway (P.after (.warm columns)) k (c.insertAllMissing columns).1
      (c.insertAllMissing columns).2 := by
  obtain ⟨hstore, -, -, hpools, -⟩ := c.insertAllMissing_frame columns
  exact h.learns (learnt hf columns) hstore hpools (c.counters_insertAllMissing columns) (.refl _) k

/-- a new epoch has the columns of the one before, all of them to be surveyed -/
theorem Settled.restart (h : Settled P c) (hf : Filed c) (hc : c.current < c.pools.size) (k : Nat)
    {known : List Column} (listed : known.Perm c.columns.keys) :
    Underway (P.surveyed P.known.card) k known (c.restart known) := by
  have hkeys : known.toFinset = P.known := by
    ext column
    rw [List.mem_toFinset, listed.mem_iff, Grid.mem_keys, h.known]
    rfl
  have hl := learnt (hf.turn hc) known
  have hnodup : known.Nodup := listed.nodup_iff.mpr (Grid.nodup_keys _)
  have hperm : Perm (c.turn.2.insertAllMissing known).1 known := by
    refine (List.perm_ext_iff_of_nodup hl.nodup hnodup).mpr fun column => ?_
    rw [hl.mem]
    exact and_iff_left (c.sheetOf?_turn column)
  obtain ⟨hstore, -, -, hpools, -⟩ := c.turn.2.insertAllMissing_frame known
  have hwork := (h.turn hc).learns hl hstore hpools (c.turn.2.counters_insertAllMissing _) hperm k
  have hafter : (P.after .dropAll).after (.warm known) = P.surveyed P.known.card := by
    simp only [Prompt.after, hkeys, Finset.sdiff_empty, Finset.union_empty]
    rfl
  rw [hafter] at hwork
  exact hwork

end
end Precinct
