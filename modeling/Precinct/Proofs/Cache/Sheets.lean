import Mathlib
import Precinct.Proofs.Cache.Custody
import Precinct.Proofs.Pool.Hands
import Precinct.Proofs.Region.Overlap

/-!
# What the sheets of a cache hold

* `Cache.columnRegions`  what the sheet of a column ought to hold: the regions of the store that may
                       hold a block of it, in layers;
* `Filed`              sheets are numbered in the order in which they were made, a known column has a
                       sheet of its own, a survey has the sheet of its first column in hand, and the
                       sheet that answered last is a known column's;
* `Reported`           the loaded sheets of known columns hold something that was said of the column,
                       and a survey that is about to publish to one of them publishes such a thing;
* `Current`            this is what they ought to hold;
* `reported_turn`      at the beginning of an epoch nothing is reported, whatever was said before;
* `Cache.Refiled`      what a step has to do with sheets and jobs (`Step.refiled`): it says everything
                       there is to say about them, so nothing below takes a step apart again;
* `Filed.step`, `Reported.step`  **every step keeps both**, if what is said of a column includes what
                       the store says now.

A survey may publish what the store said before a write.  It does so to a sheet of an epoch that has
passed, for the write is not over before every known column has a new sheet.  What was said earlier
in the same epoch is on a level with what is said now, and the epoch is all that a step looks at.
-/

namespace Precinct

/-- the sheet that a survey has in hand -/
def SurveyPhase.sheet? : SurveyPhase → Option Nat
  | checking | seeking => none
  | examining i | querying i | publishing i _ => some i

namespace Sheet

theorem column_publish (s : Sheet) (regions : List Region) :
    (s.publish regions).2.column = s.column := by
  unfold publish
  split <;> rfl

/-- the first contents stay -/
theorem regions_publish (s : Sheet) (regions : List Region) :
    (s.publish regions).2.regions = some (s.regions.getD regions) := by
  unfold publish
  split
  · rename_i old h
    rw [h]
    rfl
  · rename_i h
    rw [h]
    rfl

end Sheet

/-- what a survey has in hand is the sheet of its first column -/
def Cache.Holds {σ : Type} (c : Cache σ) (s : Survey) : Prop :=
  ∀ i, s.phase.sheet? = some i → i < c.sheets.size ∧ s.columns.head? = some (c.sheet i).column

/-- sheets are where they belong -/
structure Filed {σ : Type} (c : Cache σ) : Prop where
  numbered : ∀ i, i ∈ c.sheets ↔ i < c.sheets.size
  columns : ∀ column i, c.sheetOf? column = some i →
    i < c.sheets.size ∧ (c.sheet i).column = column
  recent : ∀ i, c.recent = some i → c.settings.hotColumn = true ∧
    c.sheetOf? (c.sheet i).column = some i ∧ (c.sheet i).isLoaded = true
  surveys : ∀ k, ∀ s ∈ (c.pool k).jobs, c.Holds s

/-- what a survey is about to publish for a known column was said of it -/
def Cache.Reports {σ : Type} (c : Cache σ) (said : Column → List Region → Prop) (s : Survey) : Prop :=
  ∀ i regions, s.phase = .publishing i regions → ∀ column, c.sheetOf? column = some i →
    said column regions

/-- sheets hold what was said of their columns -/
structure Reported {σ : Type} (said : Column → List Region → Prop) (c : Cache σ) : Prop where
  loaded : ∀ column i regions, c.sheetOf? column = some i → (c.sheet i).regions = some regions →
    said column regions
  surveys : ∀ k, ∀ s ∈ (c.pool k).jobs, c.Reports said s

/-- what the sheet of a column ought to hold -/
def Cache.columnRegions {σ : Type} [RegionStore σ] (c : Cache σ) (column : Column) : List Region :=
  Region.inLayers
    ((RegionStore.values c.store.store).filter (·.intersects (Region.column column)))

/-- sheets hold what they ought to -/
def Current {σ : Type} [RegionStore σ] (c : Cache σ) : Prop :=
  Reported (fun column regions => regions = c.columnRegions column) c

section
variable {σ : Type} {c c' : Cache σ} {said said' : Column → List Region → Prop}

/-! ## steps that leave the sheets alone -/

theorem Filed.of_frame (h : Filed c) (hsheets : c'.sheets = c.sheets)
    (hcolumns : c'.columns = c.columns) (hsettings : c'.settings = c.settings)
    (hrecent : ∀ i, c'.recent = some i → c.settings.hotColumn = true ∧
      c.sheetOf? (c.sheet i).column = some i ∧ (c.sheet i).isLoaded = true)
    (hjobs : ∀ k, ∀ s ∈ (c'.pool k).jobs, (∃ j, s ∈ (c.pool j).jobs) ∨ c.Holds s) :
    Filed c' := by
  have hsheet : ∀ i, c'.sheet i = c.sheet i := Cache.sheet_congr hsheets
  have hsheetOf : ∀ column, c'.sheetOf? column = c.sheetOf? column := Cache.sheetOf?_congr hcolumns
  refine ⟨fun i => by rw [hsheets]; exact h.numbered i, fun column i hi => ?_, fun i hi => ?_, ?_⟩
  · rw [hsheets, hsheet]
    exact h.columns column i (hsheetOf column ▸ hi)
  · rw [hsettings, hsheet, hsheetOf]
    exact hrecent i hi
  · intro k s hs i hi
    rw [hsheets, hsheet]
    rcases hjobs k s hs with ⟨j, hj⟩ | hnew
    · exact h.surveys j s hj i hi
    · exact hnew i hi

theorem Reported.mono (h : Reported said c)
    (hsaid : ∀ column regions, said column regions → said' column regions) : Reported said' c :=
  ⟨fun column i regions hi hr => hsaid column regions (h.loaded column i regions hi hr),
    fun k s hs i regions hp column hi => hsaid column regions (h.surveys k s hs i regions hp column hi)⟩

theorem Reported.of_frame (h : Reported said c) (hsheets : c'.sheets = c.sheets)
    (hcolumns : c'.columns = c.columns)
    (hjobs : ∀ k, ∀ s ∈ (c'.pool k).jobs, (∃ j, s ∈ (c.pool j).jobs) ∨ c.Reports said s) :
    Reported said c' := by
  have hsheet : ∀ i, c'.sheet i = c.sheet i := Cache.sheet_congr hsheets
  have hsheetOf : ∀ column, c'.sheetOf? column = c.sheetOf? column := Cache.sheetOf?_congr hcolumns
  refine ⟨fun column i regions hi hr => ?_, fun k s hs i regions hp column hi => ?_⟩
  · exact h.loaded column i regions (hsheetOf column ▸ hi) (hsheet i ▸ hr)
  · rcases hjobs k s hs with ⟨j, hj⟩ | hnew
    · exact h.surveys j s hj i regions hp column (hsheetOf column ▸ hi)
    · exact hnew i regions hp column (hsheetOf column ▸ hi)

/-! ## columns become known -/

theorem Cache.sheetOf?_insert (c : Cache σ) (column other : Column) (i : Nat)
    (sheets : Std.ExtTreeMap Nat Sheet compare) :
    Cache.sheetOf? { c with columns := (c.columns.insert column i).2, sheets } other =
      if column = other then some i else c.sheetOf? other :=
  c.columns.get?_insert column other i

theorem Filed.size_insert (h : Filed c) (column : Column) :
    (c.sheets.insert c.sheets.size { column }).size = c.sheets.size + 1 := by
  rw [Std.ExtTreeMap.size_insert, if_neg]
  rw [← Std.ExtTreeMap.mem_iff_contains, h.numbered]
  exact lt_irrefl _

theorem Cache.sheet_insert_of_lt {i : Nat} (hi : i < c.sheets.size) (column : Column)
    (columns : Grid Nat) : Cache.sheet { c with
      columns, sheets := c.sheets.insert c.sheets.size { column } } i = c.sheet i := by
  show (c.sheets.insert _ _).getD i default = _
  rw [Cache.getD_insert_sheet, if_neg hi.ne]
  rfl

theorem Filed.insertMissing (h : Filed c) (column : Column) : Filed (c.insertMissing column).2 := by
  cases hk : c.sheetOf? column with
  | some i =>
    rw [Cache.insertMissing_of_known (by rw [hk]; rfl)]
    exact h
  | none =>
    rw [Cache.insertMissing_of_missing hk]
    have hsize := h.size_insert column
    refine ⟨fun i => ?_, fun other i hi => ?_, fun i hi => ?_, fun k s hs i hi => ?_⟩
    · show i ∈ c.sheets.insert _ _ ↔ i < (c.sheets.insert _ _).size
      rw [hsize, Std.ExtTreeMap.mem_insert, h.numbered, Std.LawfulEqCmp.compare_eq_iff_eq]
      omega
    · rw [Cache.sheetOf?_insert] at hi
      show i < (c.sheets.insert _ _).size ∧ _
      rw [hsize]
      split at hi
      · rename_i he
        cases hi
        refine ⟨Nat.lt_succ_self _, ?_⟩
        show ((c.sheets.insert _ _).getD c.sheets.size default).column = other
        rw [Cache.getD_insert_sheet, if_pos rfl]
        exact he
      · obtain ⟨hlt, hcol⟩ := h.columns other i hi
        rw [Cache.sheet_insert_of_lt hlt]
        exact ⟨Nat.lt_succ_of_lt hlt, hcol⟩
    · obtain ⟨hot, hof, hload⟩ := h.recent i hi
      have hlt := (h.columns _ i hof).1
      rw [Cache.sheet_insert_of_lt hlt, Cache.sheetOf?_insert, if_neg]
      · exact ⟨hot, hof, hload⟩
      · rintro rfl
        rw [hk] at hof
        cases hof
    · obtain ⟨hlt, hhead⟩ := h.surveys k s hs i hi
      rw [Cache.sheet_insert_of_lt hlt]
      refine ⟨?_, hhead⟩
      show i < (c.sheets.insert _ _).size
      omega

theorem Reported.insertMissing (h : Reported said c) (hf : Filed c) (column : Column) :
    Reported said (c.insertMissing column).2 := by
  cases hk : c.sheetOf? column with
  | some i =>
    rw [Cache.insertMissing_of_known (by rw [hk]; rfl)]
    exact h
  | none =>
    rw [Cache.insertMissing_of_missing hk]
    refine ⟨fun other i regions hi hr => ?_, fun k s hs i regions hp other hi => ?_⟩
    · rw [Cache.sheetOf?_insert] at hi
      split at hi
      · cases hi
        -- the new sheet is not loaded
        have hnew : Cache.sheet { c with
            columns := (c.columns.insert column c.sheets.size).2
            sheets := c.sheets.insert c.sheets.size { column } } c.sheets.size = { column } := by
          show (c.sheets.insert _ _).getD _ default = _
          rw [Cache.getD_insert_sheet, if_pos rfl]
        rw [hnew] at hr
        cases hr
      · rw [Cache.sheet_insert_of_lt (hf.columns other i hi).1] at hr
        exact h.loaded other i regions hi hr
    · rw [Cache.sheetOf?_insert] at hi
      split at hi
      · cases hi
        -- and no survey has it in hand
        have := (hf.surveys k s hs c.sheets.size (by rw [hp]; rfl)).1
        exact absurd this (lt_irrefl _)
      · exact h.surveys k s hs i regions hp other hi

theorem Filed.insertAllMissing (h : Filed c) (columns : List Column) :
    Filed (c.insertAllMissing columns).2 :=
  Cache.insertAllMissing_induct (fun _ column hd => hd.insertMissing column) h columns

/-- a sheet stays as it is when columns become known, and none of these gets it -/
theorem Filed.insertAllMissing_of_lt (h : Filed c) {i : Nat} (hi : i < c.sheets.size)
    (columns : List Column) : (c.insertAllMissing columns).2.sheet i = c.sheet i ∧
      ∀ column, (c.insertAllMissing columns).2.sheetOf? column = some i →
        c.sheetOf? column = some i := by
  refine (Cache.insertAllMissing_induct (P := fun d => Filed d ∧ c.sheets.size ≤ d.sheets.size ∧
    d.sheet i = c.sheet i ∧ ∀ column, d.sheetOf? column = some i → c.sheetOf? column = some i)
    (fun d first hd => ?_) ⟨h, le_refl _, rfl, fun _ => id⟩ columns).2.2
  obtain ⟨hf, hle, hsame, hsub⟩ := hd
  refine ⟨hf.insertMissing first, ?_⟩
  cases hk : d.sheetOf? first with
  | some j =>
    rw [Cache.insertMissing_of_known (by rw [hk]; rfl)]
    exact ⟨hle, hsame, hsub⟩
  | none =>
    rw [Cache.insertMissing_of_missing hk, Cache.sheet_insert_of_lt (hi.trans_le hle)]
    refine ⟨?_, hsame, fun column hc => ?_⟩
    · rw [hf.size_insert]
      exact Nat.le_succ_of_le hle
    · rw [Cache.sheetOf?_insert] at hc
      split at hc
      · cases hc
        omega
      · exact hsub column hc

theorem Reported.insertAllMissing (h : Reported said c) (hf : Filed c) (columns : List Column) :
    Reported said (c.insertAllMissing columns).2 :=
  (Cache.insertAllMissing_induct (P := fun d => Filed d ∧ Reported said d)
    (fun _ column hd => ⟨hd.1.insertMissing column, hd.2.insertMissing hd.1 column⟩) ⟨hf, h⟩
    columns).2

/-! ## columns are forgotten -/

theorem Cache.sheetOf?_drop (c : Cache σ) (column other : Column) :
    (c.drop column).sheetOf? other = if column = other then none else c.sheetOf? other :=
  c.columns.get?_remove column other

theorem Filed.drop (h : Filed c) (column : Column) : Filed (c.drop column) := by
  refine ⟨h.numbered, fun other i hi => ?_, fun i hi => ?_, h.surveys⟩
  · rw [Cache.sheetOf?_drop] at hi
    split at hi
    · cases hi
    · exact h.columns other i hi
  · have hi' : (if c.recent.any fun i => (c.sheet i).column == column then none else c.recent) =
      some i := hi
    split at hi'
    · cases hi'
    · rename_i hne
      obtain ⟨hot, hof, hload⟩ := h.recent i hi'
      rw [hi', Option.any_some, beq_iff_eq] at hne
      refine ⟨hot, ?_, hload⟩
      rw [Cache.sheetOf?_drop, if_neg fun he => hne he.symm]
      exact hof

theorem Reported.drop (h : Reported said c) (column : Column) : Reported said (c.drop column) := by
  refine ⟨fun other i regions hi hr => ?_, fun k s hs i regions hp other hi => ?_⟩
  · rw [Cache.sheetOf?_drop] at hi
    split at hi
    · cases hi
    · exact h.loaded other i regions hi hr
  · rw [Cache.sheetOf?_drop] at hi
    split at hi
    · cases hi
    · exact h.surveys k s hs i regions hp other hi

theorem Cache.sheetOf?_turn (c : Cache σ) (column : Column) : c.turn.2.sheetOf? column = none :=
  Grid.get?_empty column

theorem Filed.turn (h : Filed c) (hc : c.current < c.pools.size) : Filed c.turn.2 := by
  refine ⟨h.numbered, fun column i hi => ?_, nofun, fun k s hs => ?_⟩
  · rw [Cache.sheetOf?_turn] at hi
    cases hi
  · have hon : (c.pool k).Onward (fun _ => False) (c.turn.2.pool k) := Cache.onward_turn hc k
    exact h.surveys k s ((hon.jobs hs).resolve_right id)

/-- **At the beginning of an epoch nothing is reported**, so whatever is was said. -/
theorem reported_turn (c : Cache σ) : Reported said c.turn.2 := by
  refine ⟨fun column i regions hi => ?_, fun k s hs i regions hp column hi => ?_⟩
  · rw [Cache.sheetOf?_turn] at hi
    cases hi
  · rw [Cache.sheetOf?_turn] at hi
    cases hi

/-! ## a survey publishes -/

theorem Cache.publishSheet_frame (c : Cache σ) (i : Nat) (regions : List Region) :
    (c.publishSheet i regions).store = c.store ∧
      (c.publishSheet i regions).settings = c.settings ∧
      (c.publishSheet i regions).columns = c.columns ∧
      (c.publishSheet i regions).recent = c.recent ∧
      (c.publishSheet i regions).pools = c.pools ∧
      (c.publishSheet i regions).sheets =
        c.sheets.insert i ((c.sheet i).publish regions).2 := by
  unfold publishSheet
  dsimp only
  split <;> exact ⟨rfl, rfl, rfl, rfl, rfl, rfl⟩

theorem Cache.sheetOf?_publishSheet (c : Cache σ) (i : Nat) (regions : List Region)
    (column : Column) : (c.publishSheet i regions).sheetOf? column = c.sheetOf? column := by
  obtain ⟨-, -, hcols, -⟩ := c.publishSheet_frame i regions
  exact Cache.sheetOf?_congr hcols column

theorem Cache.sheet_publishSheet (c : Cache σ) (i j : Nat) (regions : List Region) :
    (c.publishSheet i regions).sheet j =
      if j = i then ((c.sheet i).publish regions).2 else c.sheet j := by
  obtain ⟨-, -, -, -, -, hsheets⟩ := c.publishSheet_frame i regions
  rw [Cache.sheet, hsheets, Cache.getD_insert_sheet]
  rfl

/-- publishing changes no column of a sheet and unloads none -/
theorem Cache.sheet_publishSheet_column (c : Cache σ) (i j : Nat) (regions : List Region) :
    ((c.publishSheet i regions).sheet j).column = (c.sheet j).column ∧
      ((c.sheet j).isLoaded = true → ((c.publishSheet i regions).sheet j).isLoaded = true) := by
  rw [Cache.sheet_publishSheet]
  split
  · rename_i he
    rw [he, Sheet.column_publish]
    refine ⟨rfl, fun _ => ?_⟩
    rw [Sheet.isLoaded, Sheet.regions_publish]
    rfl
  · exact ⟨rfl, id⟩

theorem Filed.publishSheet (h : Filed c) {i : Nat} (hi : i < c.sheets.size)
    (regions : List Region) : Filed (c.publishSheet i regions) := by
  obtain ⟨-, hset, -, hrec, hpools, hsheets⟩ := c.publishSheet_frame i regions
  have hsize : (c.publishSheet i regions).sheets.size = c.sheets.size := by
    rw [hsheets, Std.ExtTreeMap.size_insert,
      if_pos (Std.ExtTreeMap.mem_iff_contains.mp ((h.numbered i).mpr hi))]
  have hof := c.sheetOf?_publishSheet i regions
  have hcol := fun j => (c.sheet_publishSheet_column i j regions).1
  refine ⟨fun j => ?_, fun column j hj => ?_, fun j hj => ?_, fun k s hs j hj => ?_⟩
  · rw [hsize, hsheets, Std.ExtTreeMap.mem_insert, h.numbered, Std.LawfulEqCmp.compare_eq_iff_eq]
    exact ⟨fun he => he.elim (fun e => e ▸ hi) id, Or.inr⟩
  · rw [hsize, hcol]
    exact h.columns column j (hof column ▸ hj)
  · obtain ⟨hot, hj', hload⟩ := h.recent j (hrec ▸ hj)
    rw [hset, hof, hcol]
    exact ⟨hot, hj', (c.sheet_publishSheet_column i j regions).2 hload⟩
  · rw [hsize, hcol]
    rw [Cache.pool_congr hpools] at hs
    exact h.surveys k s hs j hj

/-- a sheet that is loaded now was loaded before, or gets what the survey has in hand -/
theorem Reported.publishSheet (h : Reported said c) {k i : Nat} {s : Survey}
    {regions : List Region} (hs : s ∈ (c.pool k).jobs) (hp : s.phase = .publishing i regions) :
    Reported said (c.publishSheet i regions) := by
  obtain ⟨-, -, -, -, hpools, -⟩ := c.publishSheet_frame i regions
  have hof := c.sheetOf?_publishSheet i regions
  refine ⟨fun column j rs hj hr => ?_, fun k' s' hs' j rs hp' column hj => ?_⟩
  · rw [hof] at hj
    rw [Cache.sheet_publishSheet] at hr
    split at hr
    · rename_i he
      subst he
      rw [Sheet.regions_publish] at hr
      cases hr
      cases hold : (c.sheet j).regions with
      | some old => exact h.loaded column j old hj hold
      | none => exact h.surveys k s hs j regions hp column hj
    · exact h.loaded column j rs hj hr
  · rw [hof] at hj
    rw [Cache.pool_congr hpools] at hs'
    exact h.surveys k' s' hs' j rs hp' column hj

/-! ## the workers -/

variable [RegionStore σ] {s s' : Scene σ} {k n : Nat} {survey survey' : Survey} {r : SurveyResult}

/-- an answer of the store, sorted, is what the sheet ought to hold -/
theorem Cache.columnRegions_of_collect [ExactStore σ] {column : Column} {regions : List Region}
    {store : Watched σ} (h : ExactStore.Sound c.store.store)
    (hc : c.store.collect (Region.column column) = (.ok regions, store)) :
    Region.inLayers regions = c.columnRegions column := by
  unfold Watched.collect at hc
  split at hc
  · cases hc
  · cases hc
    show Region.inLayers (RegionStore.intersecting c.store.store (Region.column column)).1 = _
    rw [ExactStore.inLayers_intersecting h, Cache.columnRegions]

/-- a query leaves the regions of the store as they are -/
theorem Watched.collect_store [ExactStore σ] {w w' : Watched σ} {region : Region}
    {outcome : Except Fault (List Region)} (hc : w.collect region = (outcome, w')) :
    RegionStore.values w'.store = RegionStore.values w.store ∧
      (ExactStore.Sound w.store → ExactStore.Sound w'.store) := by
  unfold Watched.collect at hc
  split at hc
  · cases hc
    exact ⟨rfl, id⟩
  · cases hc
    exact ⟨ExactStore.values_intersecting _ _, fun h => ExactStore.sound_intersecting h _⟩

/-- the sheet that a survey goes on with is that of its first column -/
theorem Cache.Surveyed.holds (hf : Filed c) (hs : survey ∈ (c.pool k).jobs)
    (h : Cache.Surveyed c k n survey (.goesOn survey') c') : c'.Holds survey' := by
  have hin := hf.surveys k survey hs
  cases h with
  | checked head phase goes => exact nofun
  | missing head phase none => exact nofun
  | @found column i head phase sheet =>
    intro j hj
    cases hj
    obtain ⟨hlt, hcol⟩ := hf.columns column i (Cache.sheetFor?_eq_some sheet).2
    exact ⟨hlt, hcol ▸ head⟩
  | loaded head phase yes => exact nofun
  | entered head phase no =>
    intro j hj
    cases hj
    exact hin _ (by rw [phase]; rfl)
  | collected head phase gives =>
    intro j hj
    cases hj
    exact hin _ (by rw [phase]; rfl)
  | published head phase => exact nofun

/-- what it has in hand when the store has answered is what the sheet ought to hold -/
theorem Cache.Surveyed.reports [ExactStore σ] (hf : Filed c)
    (hstore : ExactStore.Sound c.store.store)
    (hsaid : ∀ column, said column (c.columnRegions column)) (hs : survey ∈ (c.pool k).jobs)
    (h : Cache.Surveyed c k n survey (.goesOn survey') c') : c'.Reports said survey' := by
  cases h with
  | checked head phase goes => exact nofun
  | missing head phase none => exact nofun
  | found head phase sheet => exact nofun
  | loaded head phase yes => exact nofun
  | entered head phase no => exact nofun
  | @collected column i regions store head phase gives =>
    intro j rs hj other hof
    cases hj
    have hhead := (hf.surveys k survey hs i (by rw [phase]; rfl)).2
    rw [head, (hf.columns other i hof).2] at hhead
    cases hhead
    rw [Cache.columnRegions_of_collect hstore gives]
    exact hsaid _
  | published head phase => exact nofun

theorem Filed.surveyed (hf : Filed c) (hs : survey ∈ (c.pool k).jobs)
    (h : Cache.Surveyed c k n survey r c') : Filed c' := by
  cases h with
  | @published column i regions head phase =>
    exact hf.publishSheet (hf.surveys k survey hs i (by rw [phase]; rfl)).1 regions
  | _ => exact hf.of_frame rfl rfl rfl hf.recent fun j s hs => Or.inl ⟨j, hs⟩

theorem Reported.surveyed (h : Reported said c) (hs : survey ∈ (c.pool k).jobs)
    (hdoes : Cache.Surveyed c k n survey r c') : Reported said c' := by
  cases hdoes with
  | published head phase => exact h.publishSheet hs phase
  | _ => exact h.of_frame rfl rfl fun j s hs => Or.inl ⟨j, hs⟩

theorem Filed.worked {w : WorkerStep} (hf : Filed c) (hp : (c.pool k).Sound)
    (h : Cache.Worked c k n w c') : Filed c' := by
  rcases h.provenance hp with ⟨p, rfl, hjobs⟩ | ⟨s, r, d, p, hs, hdoes, rfl, hjobs⟩
  · exact hf.of_frame rfl rfl rfl hf.recent fun j s hs => Or.inl ⟨j, hjobs j s hs⟩
  · have hd := hf.surveyed hs hdoes
    refine hd.of_frame rfl rfl rfl hd.recent fun j s' hs' => ?_
    rcases hjobs j s' hs' with hold | rfl
    · refine Or.inl ⟨j, ?_⟩
      rw [Cache.pool_congr hdoes.pools]
      exact hold
    · exact Or.inr (hdoes.holds hf hs)

theorem Reported.worked [ExactStore σ] {w : WorkerStep} (h : Reported said c) (hf : Filed c)
    (hstore : ExactStore.Sound c.store.store)
    (hsaid : ∀ column, said column (c.columnRegions column)) (hp : (c.pool k).Sound)
    (hwork : Cache.Worked c k n w c') : Reported said c' := by
  rcases hwork.provenance hp with ⟨p, rfl, hjobs⟩ | ⟨s, r, d, p, hs, hdoes, rfl, hjobs⟩
  · exact h.of_frame rfl rfl fun j s hs => Or.inl ⟨j, hjobs j s hs⟩
  · refine (h.surveyed hs hdoes).of_frame rfl rfl fun j s' hs' => ?_
    rcases hjobs j s' hs' with hold | rfl
    · refine Or.inl ⟨j, ?_⟩
      rw [Cache.pool_congr hdoes.pools]
      exact hold
    · exact Or.inr (hdoes.reports hf hstore hsaid hs)

theorem Cache.Worked.store [ExactStore σ] {w : WorkerStep} (h : Cache.Worked c k n w c') :
    RegionStore.values c'.store.store = RegionStore.values c.store.store ∧
      (ExactStore.Sound c.store.store → ExactStore.Sound c'.store.store) := by
  rcases h.cases with ⟨m, p, -, rfl⟩ | ⟨v, r, d, -, hdoes, rfl⟩
  · exact ⟨rfl, id⟩
  · show RegionStore.values d.store.store = RegionStore.values c.store.store ∧
      (ExactStore.Sound c.store.store → ExactStore.Sound d.store.store)
    cases hdoes with
    | failed head phase gives => exact Watched.collect_store gives
    | collected head phase gives => exact Watched.collect_store gives
    | @published column i regions head phase =>
      rw [(c.publishSheet_frame i regions).1]
      exact ⟨rfl, id⟩
    | _ => exact ⟨rfl, id⟩

/-! ## every step -/

omit [RegionStore σ] in
/-- the sheet that answered last is the sheet of its column -/
theorem Filed.resolved (hf : Filed c) {column : Column} {found : Option (List Region)}
    (h : Cache.Resolved c column found c') :
    Filed c' ∧ ∀ regions, found = some regions → ∃ i, c.sheetOf? column = some i ∧
      (c.sheet i).regions = some regions := by
  cases h with
  | @recent i regions hot latest here loaded counters =>
    refine ⟨hf.of_frame rfl rfl rfl hf.recent fun j s hs => Or.inl ⟨j, hs⟩, fun rs hrs => ?_⟩
    cases hrs
    exact ⟨i, here ▸ (hf.recent i latest).2.1, loaded⟩
  | @own i regions known loaded counters =>
    refine ⟨hf.of_frame rfl rfl rfl (fun j hj => ?_) fun j s hs => Or.inl ⟨j, hs⟩, fun rs hrs => ?_⟩
    · have hj' : (if c.settings.hotColumn then some i else c.recent) = some j := hj
      split at hj'
      · rename_i hot
        cases hj'
        refine ⟨hot, ?_, ?_⟩
        · rw [(hf.columns column i known).2]
          exact known
        · rw [Sheet.isLoaded, loaded]
          rfl
      · exact hf.recent j hj'
    · cases hrs
      exact ⟨i, known, loaded⟩
  | unloaded => exact ⟨hf, nofun⟩

/-- a job that has just been submitted -/
def Cache.Fresh (c : Cache σ) (v : Survey) : Prop := v.phase = .checking ∧ v.epoch = c.epoch

omit [RegionStore σ] in
/-- what is submitted is fresh -/
theorem Cache.onward_submitted {batch : List Column} {denied : Bool} {outcome : Except Fault Unit}
    {p : Pool Survey} (hsubmit : (c.pool c.current).submit
      { epoch := c.epoch, columns := batch } denied = (outcome, p)) :
    ∀ k, (c.pool k).Onward c.Fresh ((c.setPool c.current p).pool k) := by
  have hsub := Pool.submitted (c.pool c.current) ⟨c.epoch, batch, .checking⟩ denied
  rw [hsubmit] at hsub
  refine Cache.onward_setPool (hsub.onward.mono fun v hv => ?_)
  rw [hv]
  exact ⟨rfl, rfl⟩

/-- the sheets are left alone and no job comes in but fresh ones -/
structure Cache.LeavesSheets {σ : Type} (c c' : Cache σ) : Prop where
  sheets : c'.sheets = c.sheets
  columns : c'.columns = c.columns
  settings : c'.settings = c.settings
  recent : c'.recent = c.recent
  epoch : c'.epoch = c.epoch
  pools : ∀ k, (c.pool k).Onward c.Fresh (c'.pool k)

/-- what a step has to do with the sheets -/
inductive Cache.Refiled (c : Cache σ) : Cache σ → Prop
  | left {c' : Cache σ} (leaves : c.LeavesSheets c') : Refiled c c'
  | asked {column : Column} {found : Option (List Region)} {c' : Cache σ}
      (looks : c.Resolved column found c') : Refiled c c'
  | known (columns : List Column) : Refiled c (c.insertAllMissing columns).2
  | forgotten (column : Column) : Refiled c (c.drop column)
  /-- an epoch begins, with some columns known at once -/
  | turned {c' : Cache σ} (columns : List Column)
      (leaves : (c.turn.2.insertAllMissing columns).2.LeavesSheets c') : Refiled c c'
  | worked {k n : Nat} {w : WorkerStep} {c' : Cache σ} (works : Cache.Worked c k n w c') :
      Refiled c c'

omit [RegionStore σ] in
theorem Cache.leavesSheets_of_pools (hsheets : c'.sheets = c.sheets)
    (hcolumns : c'.columns = c.columns) (hsettings : c'.settings = c.settings)
    (hrecent : c'.recent = c.recent) (hepoch : c'.epoch = c.epoch) (hpools : c'.pools = c.pools) :
    c.LeavesSheets c' := by
  refine ⟨hsheets, hcolumns, hsettings, hrecent, hepoch, fun k => ?_⟩
  rw [Cache.pool_congr hpools]
  exact .refl _

/-- **What a step does to the sheets.** -/
theorem Step.refiled (hs : Step s s') (hc : Crews s) : s.cache.Refiled s'.cache := by
  have hleft : ∀ {c' : Cache σ}, c'.sheets = s.cache.sheets → c'.columns = s.cache.columns →
      c'.settings = s.cache.settings → c'.recent = s.cache.recent → c'.epoch = s.cache.epoch →
      c'.pools = s.cache.pools → s.cache.Refiled c' :=
    fun hsheets hcolumns hsettings hrecent hepoch hpools =>
      .left (Cache.leavesSheets_of_pools hsheets hcolumns hsettings hrecent hepoch hpools)
  cases hs with
  | write w rest => exact hleft rfl rfl rfl rfl rfl rfl
  | chore t rest => exact hleft rfl rfl rfl rfl rfl rfl
  | @renew known listed rest =>
    exact .turned known (Cache.leavesSheets_of_pools rfl rfl rfl rfl rfl rfl)
  | warm columns rest => exact .known columns
  | drop column rest => exact .forgotten column
  | dropAll rest => exact .turned [] (Cache.leavesSheets_of_pools rfl rfl rfl rfl rfl rfl)
  | submit doing taken => exact .left ⟨rfl, rfl, rfl, rfl, rfl, Cache.onward_submitted taken⟩
  | breakOff doing refused =>
    exact .left ⟨rfl, rfl, rfl, rfl, rfl, Cache.onward_submitted refused⟩
  | @scheduled renewal doing => cases renewal <;> exact hleft rfl rfl rfl rfl rfl rfl
  | ask p rest => exact .asked (s.cache.resolved p.column)
  | @answer p found doing =>
    obtain ⟨hset, hepoch, hcols, hsheets, hpools, -, hrec, -⟩ := s.cache.answer_frame p found
    exact hleft hsheets hcols hset hrec hepoch hpools
  | overlap r rest => exact hleft rfl rfl rfl rfl rfl rfl
  | consult p rest => exact hleft rfl rfl rfl rfl rfl rfl
  | swap rest => exact .left ⟨rfl, rfl, rfl, rfl, rfl, s.cache.onward_freshPool⟩
  | @close k doing =>
    exact .left ⟨rfl, rfl, rfl, rfl, rfl, Cache.onward_setPool (Pool.onward_close _)⟩
  | drained doing => exact hleft rfl rfl rfl rfl rfl rfl
  | dismiss rest => exact .turned [] (Cache.leavesSheets_of_pools rfl rfl rfl rfl rfl rfl)
  | observe doing => exact hleft rfl rfl rfl rfl rfl rfl
  | @dismissed pools stopped doing => cases stopped <;> exact hleft rfl rfl rfl rfl rfl rfl
  | closeGate => exact hleft rfl rfl rfl rfl rfl rfl
  | openGate => exact hleft rfl rfl rfl rfl rfl rfl
  | failNext => exact hleft rfl rfl rfl rfl rfl rfl
  | work makes => exact .worked (Cache.worked_of_step? makes)
  | elapse ms =>
    exact .left ⟨rfl, rfl, rfl, rfl, rfl, fun k => Cache.onward_elapse (hc.sound k) ms⟩

theorem Cache.Refiled.epoch_le (h : c.Refiled c') : c.epoch ≤ c'.epoch := by
  cases h with
  | left leaves => exact leaves.epoch.ge
  | asked looks => exact looks.frame.2.2.1.ge
  | known columns =>
    obtain ⟨-, -, hepoch, -⟩ := c.insertAllMissing_frame columns
    exact hepoch.ge
  | forgotten column => exact le_refl _
  | turned columns leaves =>
    obtain ⟨-, -, hepoch, -⟩ := c.turn.2.insertAllMissing_frame columns
    rw [leaves.epoch, hepoch]
    exact Nat.le_succ _
  | worked works => exact works.frame.2.1.ge

omit [RegionStore σ] in
theorem Cache.epoch_restart (c : Cache σ) (known : List Column) :
    (c.restart known).epoch = c.epoch + 1 :=
  (c.turn.2.insertAllMissing_frame known).2.2.1

omit [RegionStore σ] in
theorem Filed.left (h : Filed c) (hl : c.LeavesSheets c') : Filed c' := by
  refine h.of_frame hl.sheets hl.columns hl.settings (hl.recent ▸ h.recent) fun k v hv => ?_
  refine ((hl.pools k).jobs hv).imp (fun hv => ⟨k, hv⟩) fun hc i hi => ?_
  rw [hc.1] at hi
  cases hi

omit [RegionStore σ] in
theorem Reported.left (h : Reported said c) (hl : c.LeavesSheets c') : Reported said c' := by
  refine h.of_frame hl.sheets hl.columns fun k v hv => ?_
  refine ((hl.pools k).jobs hv).imp (fun hv => ⟨k, hv⟩) fun hc i regions hi => ?_
  rw [hc.1] at hi
  cases hi

theorem Filed.refiled (h : Filed c) (hcurrent : c.current < c.pools.size)
    (hsound : ∀ k, (c.pool k).Sound) (hr : c.Refiled c') : Filed c' := by
  cases hr with
  | left leaves => exact h.left leaves
  | asked looks => exact (h.resolved looks).1
  | known columns => exact h.insertAllMissing columns
  | forgotten column => exact h.drop column
  | turned columns leaves => exact ((h.turn hcurrent).insertAllMissing columns).left leaves
  | worked works => exact h.worked (hsound _) works

/-- **Every step keeps every sheet where it belongs.** -/
theorem Filed.step (h : Filed s.cache) (hc : Crews s) (hs : Step s s') : Filed s'.cache :=
  h.refiled hc.current hc.sound (hs.refiled hc)

theorem Reported.refiled [ExactStore σ] (h : Reported said c) (hf : Filed c)
    (hcurrent : c.current < c.pools.size) (hsound : ∀ k, (c.pool k).Sound)
    (hstore : ExactStore.Sound c.store.store)
    (hsaid : ∀ column, said column (c.columnRegions column)) (hr : c.Refiled c') :
    c'.epoch = c.epoch ∧ Reported said c' ∨
      c.epoch < c'.epoch ∧ Reported (fun _ _ => False) c' := by
  cases hr with
  | left leaves => exact Or.inl ⟨leaves.epoch, h.left leaves⟩
  | asked looks =>
    obtain ⟨-, -, hepoch, hcols, hsheets, hpools, -⟩ := looks.frame
    refine Or.inl ⟨hepoch, h.of_frame hsheets hcols fun k v hv => Or.inl ⟨k, ?_⟩⟩
    rw [Cache.pool_congr hpools] at hv
    exact hv
  | known columns =>
    obtain ⟨-, -, hepoch, -⟩ := c.insertAllMissing_frame columns
    exact Or.inl ⟨hepoch, h.insertAllMissing hf columns⟩
  | forgotten column => exact Or.inl ⟨rfl, h.drop column⟩
  | turned columns leaves =>
    obtain ⟨-, -, hepoch, -⟩ := c.turn.2.insertAllMissing_frame columns
    refine Or.inr ⟨?_, ((reported_turn c).insertAllMissing (hf.turn hcurrent) columns).left leaves⟩
    rw [leaves.epoch, hepoch]
    exact Nat.lt_succ_self _
  | worked works =>
    exact Or.inl ⟨works.frame.2.1, h.worked hf hstore hsaid (hsound _) works⟩

/-- **What is reported was said**, if what the store says now is among it; and a step that begins an
epoch leaves nothing that is reported. -/
theorem Reported.step [ExactStore σ] (h : Reported said s.cache) (hf : Filed s.cache)
    (hc : Crews s) (hstore : ExactStore.Sound s.cache.store.store)
    (hsaid : ∀ column, said column (s.cache.columnRegions column)) (hs : Step s s') :
    s'.cache.epoch = s.cache.epoch ∧ Reported said s'.cache ∨
      s.cache.epoch < s'.cache.epoch ∧ Reported (fun _ _ => False) s'.cache :=
  h.refiled hf hc.current hc.sound hstore hsaid (hs.refiled hc)

omit [RegionStore σ] in
theorem filed_start (store : σ) (settings : Settings) : Filed (Cache.ofSettings store settings) := by
  refine ⟨fun i => ?_, fun column i hi => ?_, nofun, fun k v hv => ?_⟩
  · show i ∈ (∅ : Std.ExtTreeMap Nat Sheet compare) ↔ i < 0
    simp
  · rw [Cache.sheetOf?_ofSettings] at hi
    cases hi
  · rw [Cache.jobs_ofSettings] at hv
    exact absurd hv List.not_mem_nil

omit [RegionStore σ] in
theorem reported_start (store : σ) (settings : Settings) :
    Reported said (Cache.ofSettings store settings) := by
  refine ⟨fun column i regions hi => ?_, fun k v hv => ?_⟩
  · rw [Cache.sheetOf?_ofSettings] at hi
    cases hi
  · rw [Cache.jobs_ofSettings] at hv
    exact absurd hv List.not_mem_nil

end
end Precinct
