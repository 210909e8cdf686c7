import Mathlib
import Precinct.Proofs.Cache.Scene
import Precinct.Proofs.Grid
import Precinct.Proofs.Pool.Hands

/-!
# What the steps of a cache leave alone

* `visitEach_note`     what a visitor is shown;
* `pool_setPool`, `pool_freshPool`, `pool_turn`  the pools after one of them changed, after a fresh
                       one was started, and in a new epoch;
* `onward_setPool`, `onward_freshPool`, `onward_turn`, `onward_elapse`  the same of their jobs;
* `insertMissing_of_missing`, `insertAllMissing_induct`  a column becomes known, or several;
* `Resolved`           what looking a column up does (`resolved`);
* `Surveyed`           what one step of a survey does (`surveyed_of_surveyStep?`);
* `Worked`             what one step of a worker does (`worked_of_step?`): to the cache it is a move
                       or a step of a survey (`Worked.cases`), to each pool it is nothing or an
                       `Advance`;
* `Worked.provenance`  where the jobs after such a step come from.
-/

namespace Precinct
/-! ## visitors -/

theorem visitEach_induct {τ : Type} {visitor : Region → τ → Bool × τ} {P : τ → Prop}
    (hvisit : ∀ r t, P t → P (visitor r t).2) (regions : List Region) {t : τ} (h : P t) :
    P (visitEach visitor regions t) := by
  induction regions generalizing t with
  | nil => exact h
  | cons r rest ih =>
    have hr := hvisit r t h
    rw [visitEach]
    cases hv : visitor r t with
    | mk goes t' =>
      rw [hv] at hr
      cases goes with
      | true => exact ih hr
      | false => exact hr

theorem visitEach_note (regions : List Region) (seen : Sighting) :
    (visitEach (Sighting.note none) regions seen).seen = regions.reverse ++ seen.seen := by
  induction regions generalizing seen with
  | nil => rfl
  | cons r rest ih =>
    rw [visitEach]
    show (visitEach (Sighting.note none) rest ⟨r :: seen.seen, false⟩).seen = _
    rw [ih, List.reverse_cons, List.append_assoc]
    rfl

theorem shown_visitEach_note (regions : List Region) :
    (visitEach (Sighting.note none) regions {}).shown = regions := by
  rw [Sighting.shown, visitEach_note, List.append_nil, List.reverse_reverse]

/-! ## the pool of a survey -/

namespace SurveyResult

/-- what becomes of the pool of a worker whose survey made a step -/
def pool (p : Pool Survey) (number : Nat) : SurveyResult → Pool Survey
  | goesOn v => p.proceed number v
  | ends | breaksOff => p.finish number

theorem jobs_pool {p : Pool Survey} {n : Nat} {r : SurveyResult} {v : Survey}
    (h : v ∈ (r.pool p n).jobs) : v ∈ p.jobs ∨ r = goesOn v := by
  have hfinish : v ∈ (p.finish n).jobs → v ∈ p.jobs := by
    have hon : p.Onward (fun _ => False) (p.finish n) := p.onward_finish n
    exact fun hv => (hon.jobs hv).resolve_right id
  cases r with
  | goesOn v' => exact (Pool.jobs_proceed h).imp id fun he => congrArg goesOn he.symm
  | ends => exact Or.inl (hfinish h)
  | breaksOff => exact Or.inl (hfinish h)

end SurveyResult

namespace Cache
variable {σ : Type} {c c' : Cache σ} {k j n : Nat}

/-- showing the regions that pass a test is showing them after sorting out the others -/
theorem visitWhere_eq {τ : Type} (p : Region → Bool) (visitor : Region → τ → Bool × τ)
    (regions : List Region) (t : τ) :
    visitWhere p visitor regions t = visitEach visitor (regions.filter p) t := by
  induction regions generalizing t with
  | nil => rfl
  | cons r rest ih =>
    rw [visitWhere, List.filter_cons]
    split
    · rw [visitEach]
      cases hv : visitor r t with
      | mk goes t' => cases goes <;> simp only [ih]
    · exact ih t

/-! ## pools -/

theorem pool_of_size_le (h : c.pools.size ≤ k) : c.pool k = default := by
  rw [pool, Array.getD_eq_getD_getElem?, Array.getElem?_eq_none h]
  rfl

theorem lt_size_of_pool (h : c.pool k ≠ default) : k < c.pools.size :=
  not_le.mp fun hle => h (pool_of_size_le hle)

theorem pool_congr (h : c'.pools = c.pools) (k : Nat) : c'.pool k = c.pool k := by
  rw [pool, h, pool]

/-- settings that pass the checks make a cache at its beginning -/
theorem make_eq_ok {store : σ} {settings : Settings} (h : make store settings = .ok c) :
    settings.validate = .ok () ∧ c = ofSettings store settings := by
  unfold make at h
  cases hv : settings.validate with
  | error e =>
    rw [hv] at h
    cases h
  | ok u =>
    rw [hv] at h
    cases h
    exact ⟨rfl, rfl⟩

/-- at first there is one pool, and nothing happens in it -/
theorem pool_ofSettings (store : σ) (settings : Settings) (k : Nat) :
    (ofSettings store settings).pool k = { settings := settings.pool } ∨
      (ofSettings store settings).pool k = default := by
  cases k with
  | zero => exact Or.inl rfl
  | succ k => exact Or.inr (pool_of_size_le (Nat.succ_le_succ (Nat.zero_le k)))

theorem jobs_ofSettings (store : σ) (settings : Settings) (k : Nat) :
    ((ofSettings store settings).pool k).jobs = [] := by
  rcases pool_ofSettings store settings k with he | he
  · rw [he]
    rfl
  · rw [he]
    rfl

theorem sheetOf?_ofSettings (store : σ) (settings : Settings) (column : Column) :
    (ofSettings store settings).sheetOf? column = none := Grid.get?_empty column

theorem pool_setPool (c : Cache σ) (k j : Nat) (p : Pool Survey) :
    (c.setPool k p).pool j = if j = k ∧ k < c.pools.size then p else c.pool j := by
  show (c.pools.setIfInBounds k p).getD j default = _
  rw [Array.getD_eq_getD_getElem?, Array.getElem?_setIfInBounds]
  by_cases hj : j = k
  · subst hj
    by_cases hk : j < c.pools.size
    · rw [if_pos rfl, if_pos hk, if_pos ⟨rfl, hk⟩]
      rfl
    · rw [if_pos rfl, if_neg hk, if_neg fun h => hk h.2, pool_of_size_le (not_lt.mp hk)]
      rfl
  · rw [if_neg (Ne.symm hj), if_neg fun h => hj h.1, pool, Array.getD_eq_getD_getElem?]

theorem pool_freshPool (c : Cache σ) (j : Nat) : c.freshPool.pool j =
    if j = c.pools.size then { settings := c.settings.pool, now := c.now } else c.pool j := by
  show (c.pools.push _).getD j default = _
  rw [Array.getD_eq_getD_getElem?, Array.getElem?_push]
  split
  · rfl
  · rw [pool, Array.getD_eq_getD_getElem?]

theorem pool_setPool_of_pools {d : Cache σ} (h : d.pools = c.pools) (k j : Nat)
    (p : Pool Survey) :
    (d.setPool k p).pool j = if j = k ∧ k < c.pools.size then p else c.pool j := by
  rw [pool_setPool, h, pool_congr h]

theorem size_setPool (c : Cache σ) (k : Nat) (p : Pool Survey) :
    (c.setPool k p).pools.size = c.pools.size := Array.size_setIfInBounds

theorem size_freshPool (c : Cache σ) : c.freshPool.pools.size = c.pools.size + 1 :=
  Array.size_push _

/-- the pools of a new epoch: the one that took new jobs is cancelled, a fresh one takes them -/
theorem pool_turn (h : c.current < c.pools.size) (j : Nat) : ∃ now, c.turn.2.pool j =
    if j = c.pools.size then { settings := c.settings.pool, now }
    else if j = c.current then (c.pool c.current).cancel.2 else c.pool j := by
  refine ⟨(c.setPool c.current (c.pool c.current).cancel.2).now, ?_⟩
  show (c.setPool c.current (c.pool c.current).cancel.2).freshPool.pool j = _
  rw [pool_freshPool, size_setPool, pool_setPool]
  simp only [h, and_true]
  rfl

theorem size_turn (c : Cache σ) : c.turn.2.pools.size = c.pools.size + 1 := by
  show (c.setPool c.current _).freshPool.pools.size = _
  rw [size_freshPool, size_setPool]

theorem current_turn (c : Cache σ) : c.turn.2.current = c.pools.size := size_setPool c _ _

theorem pool_elapse (c : Cache σ) (ms k : Nat) :
    (c.elapse ms).pool k = c.pool k ∨ (c.elapse ms).pool k = (c.pool k).elapse ms := by
  show (c.pools.map _).getD k default = _ ∨ (c.pools.map _).getD k default = _
  rw [Array.getD_eq_getD_getElem?, Array.getElem?_map, pool, Array.getD_eq_getD_getElem?]
  cases c.pools[k]? with
  | none => exact Or.inl rfl
  | some p => exact Or.inr rfl

theorem size_elapse (c : Cache σ) (ms : Nat) : (c.elapse ms).pools.size = c.pools.size :=
  Array.size_map

/-! ## jobs -/

theorem jobs_freshPool (c : Cache σ) (j : Nat) : (c.freshPool.pool j).jobs = (c.pool j).jobs := by
  rw [pool_freshPool]
  split
  · rename_i hj
    rw [pool_of_size_le hj.ge]
    rfl
  · rfl

theorem jobs_elapse {k : Nat} (h : (c.pool k).Sound) (ms : Nat) :
    ((c.elapse ms).pool k).jobs.Perm (c.pool k).jobs := by
  rcases pool_elapse c ms k with he | he
  · rw [he]
  · rw [he]
    obtain ⟨-, -, -, -, hjobs, -⟩ := Pool.elapse_frame _ h ms
    exact hjobs

section
variable {new : Survey → Prop}

/-- one pool goes onward and the others stay as they are -/
theorem onward_setPool {p : Pool Survey} (h : (c.pool k).Onward new p) (j : Nat) :
    (c.pool j).Onward new ((c.setPool k p).pool j) := by
  rw [pool_setPool]
  split
  · rename_i hj
    rw [hj.1]
    exact h
  · exact .refl _

theorem onward_freshPool (c : Cache σ) (k : Nat) : (c.pool k).Onward new (c.freshPool.pool k) := by
  rw [pool_freshPool]
  split
  · exact .of_rounds nofun nofun
  · exact .refl _

theorem onward_turn (h : c.current < c.pools.size) (k : Nat) :
    (c.pool k).Onward new (c.turn.2.pool k) := by
  obtain ⟨now, hk⟩ := pool_turn h k
  rw [hk]
  split
  · exact .of_rounds nofun nofun
  · split
    · rename_i hcurrent
      rw [hcurrent]
      exact Pool.onward_cancel _
    · exact .refl _

theorem onward_elapse (h : (c.pool k).Sound) (ms : Nat) :
    (c.pool k).Onward new ((c.elapse ms).pool k) := by
  rcases pool_elapse c ms k with he | he
  · rw [he]
    exact .refl _
  · rw [he]
    exact Pool.onward_elapse h ms

end

/-! ## sheets -/

theorem sheet_congr (h : c'.sheets = c.sheets) (i : Nat) : c'.sheet i = c.sheet i := by
  rw [sheet, h, sheet]

theorem sheetOf?_congr (h : c'.columns = c.columns) (column : Column) :
    c'.sheetOf? column = c.sheetOf? column := by
  rw [sheetOf?, h, sheetOf?]

theorem getD_insert_sheet (sheets : Std.ExtTreeMap Nat Sheet compare) (i j : Nat) (s : Sheet) :
    (sheets.insert i s).getD j default = if j = i then s else sheets.getD j default := by
  rw [Std.ExtTreeMap.getD_insert]
  simp only [Std.LawfulEqCmp.compare_eq_iff_eq, eq_comm (a := i)]

theorem insertMissing_of_known {column : Column} (h : (c.sheetOf? column).isSome = true) :
    c.insertMissing column = (false, c) := by
  rw [insertMissing, if_pos (by rw [Grid.contains_eq]; exact h)]

theorem insertMissing_of_missing {column : Column} (h : c.sheetOf? column = none) :
    c.insertMissing column = (true, { c with
      columns := (c.columns.insert column c.sheets.size).2
      sheets := c.sheets.insert c.sheets.size { column } }) := by
  have hc : c.columns.contains column = false := by
    rw [Grid.contains_eq, show c.columns.get? column = none from h]
    rfl
  rw [insertMissing, if_neg (by rw [hc]; exact Bool.false_ne_true)]

theorem insertAllMissing_induct {P : Cache σ → Prop}
    (hone : ∀ c column, P c → P (c.insertMissing column).2) (h : P c) (columns : List Column) :
    P (c.insertAllMissing columns).2 := by
  induction columns generalizing c with
  | nil => exact h
  | cons column rest ih => exact ih (hone c column h)

theorem insertAllMissing_frame (c : Cache σ) (columns : List Column) :
    (c.insertAllMissing columns).2.store = c.store ∧
      (c.insertAllMissing columns).2.settings = c.settings ∧
      (c.insertAllMissing columns).2.epoch = c.epoch ∧
      (c.insertAllMissing columns).2.pools = c.pools ∧
      (c.insertAllMissing columns).2.current = c.current ∧
      (c.insertAllMissing columns).2.recent = c.recent ∧
      (c.insertAllMissing columns).2.dismissed = c.dismissed := by
  refine insertAllMissing_induct (P := fun d => d.store = c.store ∧ d.settings = c.settings ∧
    d.epoch = c.epoch ∧ d.pools = c.pools ∧ d.current = c.current ∧ d.recent = c.recent ∧
    d.dismissed = c.dismissed) ?_ ⟨rfl, rfl, rfl, rfl, rfl, rfl, rfl⟩ columns
  rintro d column h
  unfold insertMissing
  split
  · exact h
  · exact h

/-! ## renewals -/

/-- a renewal is a new epoch with the columns known before, and then they are scheduled -/
theorem renew_of_ok (h : (c.restart c.columns.keys).schedule c.columns.keys = (.ok (), c')) :
    c.renew = (.ok (), c'.submitted true) := by
  rw [restart] at h
  unfold renew
  dsimp only
  rw [h]
  rfl

theorem renew_of_error {fault : Fault}
    (h : (c.restart c.columns.keys).schedule c.columns.keys = (.error fault, c')) :
    c.renew = (.error fault, c') := by
  rw [restart] at h
  unfold renew
  dsimp only
  rw [h]

/-- what a removal gives back makes no difference to the cache -/
theorem cache_remove [RegionStore σ] (c : Cache σ) (id : String) (removal : Removal) :
    (RegionStore.remove c id removal).2 = (c.remove id removal).2 := by
  simp only [RegionStore.remove]
  split
  · rename_i hr
    rw [hr]
  · rename_i hr
    rw [hr]

/-! ## queries -/

/-- what it can come to that the column of a block is looked up -/
inductive Resolved (c : Cache σ) (column : Column) : Option (List Region) → Cache σ → Prop
  | recent {i : Nat} {regions : List Region} (hot : c.settings.hotColumn = true)
      (latest : c.recent = some i) (here : (c.sheet i).column = column)
      (loaded : (c.sheet i).regions = some regions) (counters : Counters) :
      Resolved c column (some regions) { c with counters }
  | own {i : Nat} {regions : List Region} (known : c.sheetOf? column = some i)
      (loaded : (c.sheet i).regions = some regions) (counters : Counters) :
      Resolved c column (some regions)
        { c with counters, recent := if c.settings.hotColumn then some i else c.recent }
  | unloaded : Resolved c column none c

/-- **What looking a column up does.** -/
theorem resolved (c : Cache σ) (column : Column) :
    Resolved c column (c.resolve column).1 (c.resolve column).2 := by
  unfold resolve
  dsimp only
  split
  · rename_i regions hvia
    split at hvia
    · rename_i hot
      obtain ⟨i, latest, hi⟩ := Option.bind_eq_some_iff.mp hvia
      split at hi
      · rename_i here
        exact .recent hot latest here hi _
      · cases hi
    · cases hvia
  · split
    · exact .unloaded
    · rename_i i known
      split
      · exact .unloaded
      · rename_i regions loaded
        exact .own known loaded _

theorem Resolved.frame {column : Column} {found : Option (List Region)}
    (h : Resolved c column found c') : c'.store = c.store ∧ c'.settings = c.settings ∧
      c'.epoch = c.epoch ∧ c'.columns = c.columns ∧ c'.sheets = c.sheets ∧ c'.pools = c.pools ∧
      c'.current = c.current ∧ c'.dismissed = c.dismissed := by
  cases h <;> exact ⟨rfl, rfl, rfl, rfl, rfl, rfl, rfl, rfl⟩

/-! ## surveys -/

/-- the sheet with the contents of a survey, the first ones it gets -/
def publishSheet (c : Cache σ) (i : Nat) (regions : List Region) : Cache σ :=
  let c' := { c with sheets := c.sheets.insert i ((c.sheet i).publish regions).2 }
  if ((c.sheet i).publish regions).1 then c'.countLoaded else c'

variable [RegionStore σ]

theorem answer_frame (c : Cache σ) (p : Block) (found : Option (List Region)) :
    (c.answer p found).2.settings = c.settings ∧ (c.answer p found).2.epoch = c.epoch ∧
      (c.answer p found).2.columns = c.columns ∧ (c.answer p found).2.sheets = c.sheets ∧
      (c.answer p found).2.pools = c.pools ∧ (c.answer p found).2.current = c.current ∧
      (c.answer p found).2.recent = c.recent ∧
      (c.answer p found).2.dismissed = c.dismissed := by
  cases found <;> exact ⟨rfl, rfl, rfl, rfl, rfl, rfl, rfl, rfl⟩

omit [RegionStore σ] in
/-- a survey finds a sheet in its own epoch only -/
theorem sheetFor?_eq_some {s : Survey} {column : Column} {i : Nat}
    (h : c.sheetFor? s column = some i) : s.epoch = c.epoch ∧ c.sheetOf? column = some i := by
  unfold sheetFor? at h
  split at h
  · rename_i he
    exact ⟨he.symm, h⟩
  · cases h

/-- what one step of a survey by a worker of a pool does -/
inductive Surveyed (c : Cache σ) (k number : Nat) (s : Survey) : SurveyResult → Cache σ → Prop
  | empty (none : s.columns = []) : Surveyed c k number s .ends c
  | stopped {column : Column} (head : s.columns.head? = some column) (phase : s.phase = .checking)
      (stop : (c.pool k).cancelled = true) : Surveyed c k number s .ends c.countCancelled
  | checked {column : Column} (head : s.columns.head? = some column) (phase : s.phase = .checking)
      (goes : (c.pool k).cancelled = false) :
      Surveyed c k number s (.goesOn { s with phase := .seeking }) c
  | missing {column : Column} (head : s.columns.head? = some column) (phase : s.phase = .seeking)
      (none : c.sheetFor? s column = none) : Surveyed c k number s (.goesOn s.next) c
  | found {column : Column} {i : Nat} (head : s.columns.head? = some column)
      (phase : s.phase = .seeking) (sheet : c.sheetFor? s column = some i) :
      Surveyed c k number s (.goesOn { s with phase := .examining i }) c
  | loaded {column : Column} {i : Nat} (head : s.columns.head? = some column)
      (phase : s.phase = .examining i) (yes : (c.sheet i).isLoaded = true) :
      Surveyed c k number s (.goesOn s.next) c
  | entered {column : Column} {i : Nat} (head : s.columns.head? = some column)
      (phase : s.phase = .examining i) (no : (c.sheet i).isLoaded = false) :
      Surveyed c k number s (.goesOn { s with phase := .querying i })
        { c with store := c.store.enter (.worker k number) }
  | failed {column : Column} {i : Nat} {fault : Fault} {store : Watched σ}
      (head : s.columns.head? = some column) (phase : s.phase = .querying i)
      (gives : c.store.collect (Region.column column) = (.error fault, store)) :
      Surveyed c k number s .breaksOff { c with store }
  | collected {column : Column} {i : Nat} {regions : List Region} {store : Watched σ}
      (head : s.columns.head? = some column) (phase : s.phase = .querying i)
      (gives : c.store.collect (Region.column column) = (.ok regions, store)) :
      Surveyed c k number s
        (.goesOn { s with phase := .publishing i (Region.inLayers regions) }) { c with store }
  | published {column : Column} {i : Nat} {regions : List Region}
      (head : s.columns.head? = some column) (phase : s.phase = .publishing i regions) :
      Surveyed c k number s (.goesOn s.next) (c.publishSheet i regions)

/-- **What a step of a survey does.** -/
theorem surveyed_of_surveyStep? {s : Survey} {r : SurveyResult}
    (h : c.surveyStep? k n s = some (r, c')) : Surveyed c k n s r c' := by
  unfold surveyStep? at h
  split at h
  · rename_i hnil
    cases h
    exact .empty hnil
  · rename_i column rest hcons
    have head : s.columns.head? = some column := by rw [hcons]; rfl
    split at h
    · rename_i phase
      split at h
      · rename_i stop
        cases h
        exact .stopped head phase stop
      · rename_i goes
        cases h
        exact .checked head phase (Bool.not_eq_true _ ▸ goes)
    · rename_i phase
      split at h
      · rename_i none
        cases h
        exact .missing head phase none
      · rename_i i sheet
        cases h
        exact .found head phase sheet
    · rename_i i phase
      split at h
      · rename_i yes
        cases h
        exact .loaded head phase yes
      · rename_i no
        cases h
        exact .entered head phase (Bool.not_eq_true _ ▸ no)
    · rename_i i phase
      split at h
      · cases h
      · split at h
        · rename_i fault store gives
          cases h
          exact .failed head phase gives
        · rename_i regions store gives
          cases h
          exact .collected head phase gives
    · rename_i i regions phase
      cases h
      exact .published head phase

theorem Surveyed.frame {s : Survey} {r : SurveyResult} (h : Surveyed c k n s r c') :
    c'.settings = c.settings ∧ c'.epoch = c.epoch ∧ c'.columns = c.columns ∧ c'.pools = c.pools ∧
      c'.current = c.current ∧ c'.recent = c.recent ∧ c'.dismissed = c.dismissed := by
  have hrefl : c.settings = c.settings ∧ c.epoch = c.epoch ∧ c.columns = c.columns ∧
      c.pools = c.pools ∧ c.current = c.current ∧ c.recent = c.recent ∧
      c.dismissed = c.dismissed := ⟨rfl, rfl, rfl, rfl, rfl, rfl, rfl⟩
  cases h with
  | published head phase =>
    unfold publishSheet
    dsimp only
    split <;> exact hrefl
  | _ => exact hrefl

theorem Surveyed.epoch {s : Survey} {r : SurveyResult} (h : Surveyed c k n s r c') :
    c'.epoch = c.epoch := h.frame.2.1

theorem Surveyed.pools {s : Survey} {r : SurveyResult} (h : Surveyed c k n s r c') :
    c'.pools = c.pools := h.frame.2.2.2.1

/-! ## workers -/

/-- what one step of a worker does: a move, or a step of the survey that it runs -/
inductive Worked (c : Cache σ) (k number : Nat) : WorkerStep → Cache σ → Prop
  | moved {m : Move} {p : Pool Survey} (makes : (c.pool k).step? number m = some p) :
      Worked c k number (.move m) (c.setPool k p)
  | goesOn {w : Worker Survey} {s s' : Survey} {d : Cache σ}
      (worker : (c.pool k).worker? number = some w) (phase : w.phase = .running s)
      (does : Surveyed c k number s (.goesOn s') d) :
      Worked c k number .survey (d.setPool k ((c.pool k).proceed number s'))
  | ends {w : Worker Survey} {s : Survey} {d : Cache σ}
      (worker : (c.pool k).worker? number = some w) (phase : w.phase = .running s)
      (does : Surveyed c k number s .ends d) :
      Worked c k number .survey (d.setPool k ((c.pool k).finish number))
  | breaksOff {w : Worker Survey} {s : Survey} {d : Cache σ}
      (worker : (c.pool k).worker? number = some w) (phase : w.phase = .running s)
      (does : Surveyed c k number s .breaksOff d) (lost : c.breaksOff k number .survey = true) :
      Worked c k number .survey (d.setPool k ((c.pool k).finish number))

/-- **What a step of a worker does.** -/
theorem worked_of_step? {w : WorkerStep} (h : c.step? k n w = some c') : Worked c k n w c' := by
  cases w with
  | move m =>
    obtain ⟨p, hp, heq⟩ := Option.map_eq_some_iff.mp h
    cases heq
    exact .moved hp
  | survey =>
    unfold step? at h
    dsimp only at h
    cases hw : (c.pool k).worker? n with
    | none =>
      rw [hw] at h
      cases h
    | some w =>
      rw [hw] at h
      dsimp only [Option.map_some] at h
      cases hphase : w.phase with
      | running s =>
        rw [hphase] at h
        obtain ⟨⟨r, d⟩, hs, heq⟩ := Option.map_eq_some_iff.mp h
        have hdoes := surveyed_of_surveyStep? hs
        have hpool : d.pool k = c.pool k := pool_congr hdoes.pools k
        cases r with
        | goesOn s' =>
          cases heq
          show Worked c k n .survey (d.setPool k ((d.pool k).proceed n s'))
          rw [hpool]
          exact .goesOn hw hphase hdoes
        | ends =>
          cases heq
          show Worked c k n .survey (d.setPool k ((d.pool k).finish n))
          rw [hpool]
          exact .ends hw hphase hdoes
        | breaksOff =>
          cases heq
          show Worked c k n .survey (d.setPool k ((d.pool k).finish n))
          rw [hpool]
          refine .breaksOff hw hphase hdoes ?_
          rw [Cache.breaksOff, hw, Option.map_some, hphase]
          dsimp only
          rw [hs]
          rfl
      | waiting => rw [hphase] at h; cases h
      | held job => rw [hphase] at h; cases h
      | ready job => rw [hphase] at h; cases h
      | resting => rw [hphase] at h; cases h
      | leaving => rw [hphase] at h; cases h

/-- a worker makes a move, or a step of the survey that it runs -/
theorem Worked.cases {w : WorkerStep} (h : Worked c k n w c') :
    (∃ m p, (c.pool k).step? n m = some p ∧ c' = c.setPool k p) ∨
      ∃ v r d, (c.pool k).Runs n v ∧ Surveyed c k n v r d ∧
        c' = d.setPool k (r.pool (c.pool k) n) := by
  cases h with
  | moved makes => exact Or.inl ⟨_, _, makes, rfl⟩
  | goesOn worker phase does =>
    exact Or.inr ⟨_, _, _, Pool.runs_of_worker? worker phase, does, rfl⟩
  | ends worker phase does =>
    exact Or.inr ⟨_, _, _, Pool.runs_of_worker? worker phase, does, rfl⟩
  | breaksOff worker phase does lost =>
    exact Or.inr ⟨_, _, _, Pool.runs_of_worker? worker phase, does, rfl⟩

theorem Worked.frame {w : WorkerStep} (h : Worked c k n w c') :
    c'.settings = c.settings ∧ c'.epoch = c.epoch ∧ c'.columns = c.columns ∧
      c'.current = c.current ∧ c'.recent = c.recent ∧ c'.dismissed = c.dismissed ∧
      c'.pools.size = c.pools.size := by
  rcases h.cases with ⟨m, p, -, rfl⟩ | ⟨v, r, d, -, hdoes, rfl⟩
  · exact ⟨rfl, rfl, rfl, rfl, rfl, rfl, size_setPool _ _ _⟩
  · obtain ⟨hset, hepoch, hcols, hpools, hcur, hrec, hdis⟩ := hdoes.frame
    exact ⟨hset, hepoch, hcols, hcur, hrec, hdis, by rw [size_setPool, hpools]⟩

/-- to a pool a step of a worker is nothing, or something the pool does by itself -/
theorem Worked.pool {w : WorkerStep} (h : Worked c k n w c') (j : Nat) :
    c'.pool j = c.pool j ∨ Pool.Advance (c.pool j) (c'.pool j) := by
  have hset : ∀ {d : Cache σ} {p : Pool Survey}, d.pools = c.pools → Pool.Advance (c.pool k) p →
      (d.setPool k p).pool j = c.pool j ∨
        Pool.Advance (c.pool j) ((d.setPool k p).pool j) := by
    intro d p hpools hp
    rw [pool_setPool_of_pools hpools]
    split
    · rename_i hj
      rw [hj.1]
      exact Or.inr hp
    · exact Or.inl rfl
  cases h with
  | moved makes => exact hset rfl (.move makes)
  | goesOn worker phase does => exact hset does.pools (.proceed _ worker phase)
  | ends worker phase does => exact hset does.pools (.finish worker phase)
  | breaksOff worker phase does lost => exact hset does.pools (.finish worker phase)

/-- the jobs after a step of a worker were there before, but for the survey that made the step -/
theorem Worked.provenance {w : WorkerStep} (hp : (c.pool k).Sound) (h : Worked c k n w c') :
    (∃ p, c' = c.setPool k p ∧ ∀ j s, s ∈ (c'.pool j).jobs → s ∈ (c.pool j).jobs) ∨
      ∃ s r d p, s ∈ (c.pool k).jobs ∧ Surveyed c k n s r d ∧ c' = d.setPool k p ∧
        ∀ j s', s' ∈ (c'.pool j).jobs → s' ∈ (c.pool j).jobs ∨ r = .goesOn s' := by
  rcases h.cases with ⟨m, p, makes, rfl⟩ | ⟨v, r, d, hruns, hdoes, rfl⟩
  · have hon : ∀ j, (c.pool j).Onward (fun _ => False) ((c.setPool k p).pool j) :=
      onward_setPool (Pool.onward_step? hp makes)
    exact Or.inl ⟨p, rfl, fun j s hs => ((hon j).jobs hs).resolve_right id⟩
  · refine Or.inr ⟨v, r, d, _, hruns.mem_jobs, hdoes, rfl, fun j s hs => ?_⟩
    rw [pool_setPool_of_pools hdoes.pools] at hs
    split at hs
    · rename_i hj
      rw [hj.1]
      exact SurveyResult.jobs_pool hs
    · exact Or.inl hs

end Cache
end Precinct
