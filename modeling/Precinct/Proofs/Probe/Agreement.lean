import Mathlib
import Precinct.Probe.Arguments
import Precinct.Proofs.Probe.Layout
import Precinct.Proofs.Probe.Progress
import Precinct.Proofs.Store.Choice
import Precinct.Proofs.Store.Indexed

/-!
# A probe that is ready finds cache and store agreed

* `Counters.exists_hitRatio`  the share of queries that did not touch the store can be computed;
* `Plan.found`         how many regions the queries of a plan find in all;
* `Report.Kept`        what every report of a plan says, and `Report.Ready` what it says besides when the
                       columns were loaded in time;
* `Plan.Returns`       a report is returned unless the regions found are too many to be counted;
* `Trial.returns`      **so does every finished trial**, however its steps are ordered;
* `exists_trial`       a probe in one go is one of these trials;
* **`run_kept`**       so a probe of a plan whose lists fit their memory returns such a report.
-/

namespace Precinct
open Relation (ReflTransGen)

/-! ## counts as 64-bit numbers -/

theorem addExact_ok {a b : UInt64} (h : a.toNat + b.toNat < 2 ^ 64) :
    addExact a b.toNat = .ok (a + b) := by
  have hsize : a.toNat + b.toNat < UInt64.size := h
  rw [addExact, if_pos hsize, Nat.toUInt64, UInt64.ofNat_toNat]

namespace Counters
variable {c : Counters}

theorem toNat_snapshot (h : c.queries < 2 ^ 64) :
    c.snapshot.hotColumnHits.toNat = c.hotColumnHits ∧
      c.snapshot.columnHits.toNat = c.columnHits ∧
      c.snapshot.storeFallbacks.toNat = c.storeFallbacks := by
  rw [queries] at h
  refine ⟨?_, ?_, ?_⟩
  · exact UInt64.toNat_ofNat'.trans (Nat.mod_eq_of_lt (by omega))
  · exact UInt64.toNat_ofNat'.trans (Nat.mod_eq_of_lt (by omega))
  · exact UInt64.toNat_ofNat'.trans (Nat.mod_eq_of_lt (by omega))

/-- no sum of queries leaves its range -/
theorem exists_hitRatio (h : c.queries < 2 ^ 64) : ∃ ratio, c.snapshot.hitRatio = .ok ratio := by
  obtain ⟨hhot, hown, hstore⟩ := toNat_snapshot h
  rw [queries] at h
  have hhits := addExact_ok (a := c.snapshot.hotColumnHits) (b := c.snapshot.columnHits) (by omega)
  have htotal := addExact_ok (a := c.snapshot.hotColumnHits + c.snapshot.columnHits)
    (b := c.snapshot.storeFallbacks) (by rw [UInt64.toNat_add]; omega)
  rw [Stats.hitRatio, hhits]
  dsimp only [bind, Except.bind]
  rw [htotal]
  exact ⟨_, rfl⟩

end Counters

/-! ## how much can be found -/

theorem Table.contents_addAll (t : Table) (regions : List Region) :
    (t.addAll regions).contents = regions.foldl (fun m r => m.insert r.id r) t.contents :=
  (List.foldl_hom Table.contents fun _ _ => rfl).symm

theorem RegionMap.length_regions (m : RegionMap) : m.regions.length = m.size := by
  rw [regions_eq, List.length_map, Std.ExtTreeMap.length_toList]

theorem RegionMap.size_ofRegions (regions : List Region) :
    (ofRegions regions).size ≤ regions.length := by
  have hfold : ∀ m : RegionMap,
      (regions.foldl (fun m r => m.insert r.id r) m).size ≤ m.size + regions.length := by
    induction regions with
    | nil => exact fun m => le_rfl
    | cons r regions ih =>
      intro m
      have hrest := ih (m.insert r.id r)
      have hone : (m.insert r.id r).size ≤ m.size + 1 := Std.ExtTreeMap.size_insert_le
      rw [List.foldl_cons, List.length_cons]
      omega
  exact (hfold ∅).trans_eq (Nat.zero_add _)

namespace Probe

/-- how often blocks are in regions, in all -/
def timesCovered (regions : List Region) (points : List Block) : ℕ :=
  (points.map fun p => ((RegionMap.ofRegions regions).select (·.contains p)).length).sum

/-- no block is in more than all regions -/
theorem timesCovered_le (regions : List Region) (points : List Block) :
    timesCovered regions points ≤ regions.length * points.length := by
  have hsum := List.sum_le_card_nsmul
    (points.map fun p => ((RegionMap.ofRegions regions).select (·.contains p)).length)
    regions.length fun n hn => by
      obtain ⟨p, -, rfl⟩ := List.mem_map.mp hn
      rw [RegionMap.select_eq]
      refine (List.length_filter_le _ _).trans ?_
      rw [RegionMap.length_regions]
      exact RegionMap.size_ofRegions regions
  rwa [List.length_map, smul_eq_mul, Nat.mul_comm] at hsum

/-- how many regions the queries of a plan find in all -/
def Plan.found (plan : Plan) : Except Failure ℕ := do
  let (regions, _) ← layout plan.regions plan.radius layoutSeed
  let (points, _) ← queryPoints plan.queries plan.radius querySeed
  return timesCovered regions points

/-! ## what is reported -/

/-- what a report says when the columns were loaded in time -/
structure Report.Ready (plan : Plan) (r : Report) : Prop where
  storeFallbacks : r.stats.storeFallbacks = 0
  hits : r.stats.hotColumnHits.toNat + r.stats.columnHits.toNat = plan.queries
  columnsLoaded : r.stats.columnsLoaded.toNat = (2 * plan.radius.toInt.toNat + 1) ^ 2
  rebuilds : r.stats.rebuilds = 1
  tasksCancelled : r.stats.tasksCancelled = 0

/-- what every report of a plan says whose queries find this many regions -/
structure Report.Kept (plan : Plan) (found : ℕ) (r : Report) : Prop where
  passed : r.check.passed = true
  queries : r.check.queries = plan.queries
  mismatches : r.check.mismatches = 0
  samples : r.check.samples = []
  matchesFound : r.check.matchesFound.toNat = found
  /-- whoever answers it, a query is counted once -/
  counted : r.stats.hotColumnHits.toNat + r.stats.columnHits.toNat + r.stats.storeFallbacks.toNat =
    plan.queries
  /-- the share of queries that did not touch the store -/
  ratio : ∃ x, r.stats.hitRatio = .ok x
  ready : r.warmed = true → r.Ready plan

/-- a report is returned unless its queries find more regions than 64 bits can count -/
structure Plan.Returns (plan : Plan) (found : ℕ) (outcome : Except Failure Report) : Prop where
  report : found < 2 ^ 64 → ∃ r, outcome = .ok r ∧ r.Kept plan found
  overflow : 2 ^ 64 ≤ found → outcome = .error (.broken .overflow)

/-- regions, columns and blocks as a plan asks for them -/
structure Plan.Fits (plan : Plan) (regions : List Region) (columns : List Column)
    (points : List Block) : Prop where
  laidOut : regions.length = plan.regions
  square : columns.toFinset.card = (2 * plan.radius.toInt.toNat + 1) ^ 2
  asked : points.length = plan.queries
  within : ∀ p ∈ points, p.column ∈ columns
  queries_lt : plan.queries < 2 ^ 64
  radius_le : plan.radius.toInt ≤ maxRadius

section
variable {σ : Type} [RegionStore σ] [ExactStore σ] [Tabled σ] {plan : Plan} {regions : List Region}
  {columns : List Column} {points : List Block} {t : Trial σ} {c : Cache σ}

/-- a cache over an empty store, before anything is known -/
abbrev untouched : Prompt := { table := Table.ofRegions [] }

omit [RegionStore σ] [ExactStore σ] [Tabled σ] in
theorem length_regionsAt (p : Block) :
    ((prepared untouched regions columns).regionsAt p).length =
      ((RegionMap.ofRegions regions).select (·.contains p)).length := by
  have hcontents : ((Table.ofRegions []).addAll regions).contents = RegionMap.ofRegions regions :=
    Table.contents_addAll _ regions
  rw [RegionMap.select_eq, ← hcontents]
  exact (Region.inLayers_perm _).length_eq

/-- a trial that is done with its deeds has asked a cache that answers exactly, and one with all columns
loaded if it was ready -/
theorem Stands.asked {P : Prompt} (h : Stands P regions columns points t) (prepared : t.ahead = [])
    (rest : t.scene.doing.AtRest) :
    Asked (Probe.prepared P regions columns) t.queries t.scene ∧ (t.scene.doing = .drained true →
      Polled (Probe.prepared P regions columns) t.queries t.scene) := by
  cases h with
  | opening ahead unasked rest settled => cases prepared.symm.trans ahead
  | adding ahead unasked adds => cases prepared.symm.trans ahead
  | warming ahead unasked submits => cases prepared.symm.trans ahead
  | awaiting ahead unasked doing underway =>
    rcases doing with doing | doing <;>
    · rw [doing] at rest
      exact rest.elim
  | asking ahead doing polled => exact ⟨polled.toAsked, fun _ => polled⟩
  | gaveUp ahead doing asked =>
    refine ⟨asked, fun ready => ?_⟩
    cases ready.symm.trans doing

/-- what a trial that was ready has counted -/
theorem Trial.ready (hpolled : Polled (prepared untouched regions columns) t.queries t.scene)
    (hqueries : t.scene.cache.counters.queries = plan.queries)
    (hfits : plan.Fits regions columns points) {warmed : Bool} {check : CrossCheck} :
    Report.Ready plan ⟨warmed, check, t.scene.cache.counters.snapshot⟩ := by
  obtain ⟨hits, containing, settled⟩ := hpolled.settled
  have hfallbacks : t.scene.cache.counters.storeFallbacks = 0 := settled.fallbacks
  have hloaded : t.scene.cache.counters.columnsLoaded = (2 * plan.radius.toInt.toNat + 1) ^ 2 := by
    rw [settled.loaded, ← hfits.square]
    show 0 + 0 + (columns.toFinset \ ∅).card = _
    rw [Finset.sdiff_empty, Nat.zero_add]
  have hrebuilds : t.scene.cache.counters.rebuilds = 1 := settled.renewals
  have hcancelled : t.scene.cache.counters.tasksCancelled = 0 := settled.cancelled
  obtain ⟨hhot, hown, -⟩ := Counters.toNat_snapshot (c := t.scene.cache.counters)
    (by rw [hqueries]; exact hfits.queries_lt)
  rw [Counters.queries, hfallbacks] at hqueries
  refine ⟨?_, ?_, ?_, ?_, ?_⟩
  · show t.scene.cache.counters.storeFallbacks.toUInt64 = 0
    rw [hfallbacks]
    rfl
  · show t.scene.cache.counters.snapshot.hotColumnHits.toNat +
      t.scene.cache.counters.snapshot.columnHits.toNat = _
    omega
  · show t.scene.cache.counters.columnsLoaded.toUInt64.toNat = _
    have hradius := hfits.radius_le
    rw [maxRadius] at hradius
    have hsquare : (2 * plan.radius.toInt.toNat + 1) ^ 2 ≤ 2049 ^ 2 :=
      Nat.pow_le_pow_left (by omega) 2
    rw [hloaded]
    exact UInt64.toNat_ofNat'.trans (Nat.mod_eq_of_lt (by omega))
  · show t.scene.cache.counters.rebuilds.toUInt64 = 1
    rw [hrebuilds]
    rfl
  · show t.scene.cache.counters.tasksCancelled.toUInt64 = 0
    rw [hcancelled]
    rfl

/-- **Every finished trial returns what the plan promises.** -/
theorem Trial.returns (h : Stands untouched regions columns points t)
    (hcounted : t.Counted points) (hfits : plan.Fits regions columns points)
    (hfinished : t.Finished) :
    plan.Returns (timesCovered regions points) (t.report.mapError .broken) := by
  obtain ⟨hahead, rest, hover⟩ := hfinished
  have hlength : t.queries.length = plan.queries := by
    rw [← hfits.asked, ← hcounted.blocks, List.length_map]
  have hqueries : t.scene.cache.counters.queries = plan.queries := by
    rw [hcounted.counted, ← hlength, List.countP_eq_length]
    intro q hq
    exact Inquiry.counted_of_isOver (hover q hq)
  have hrange : t.scene.cache.counters.queries < 2 ^ 64 := hqueries.trans_lt hfits.queries_lt
  obtain ⟨hhot, hown, hstore⟩ := Counters.toNat_snapshot hrange
  have hfound : timesCovered regions points = (t.queries.map fun q =>
      ((prepared untouched regions columns).regionsAt q.block).length).sum := by
    simp only [length_regionsAt]
    rw [timesCovered, ← hcounted.blocks, List.map_map]
    rfl
  obtain ⟨hasked, hpolled⟩ := h.asked hahead rest
  have hchecked := hasked.checked hover hfound
  rw [hlength] at hchecked
  refine ⟨fun hcountable => ?_, fun hoverflow => ?_⟩
  · rw [if_pos hcountable] at hchecked
    rw [Trial.report, hchecked]
    refine ⟨_, rfl, rfl, rfl, rfl, rfl, CrossCheck.toNat_matchesFound hcountable, ?_,
      Counters.exists_hitRatio hrange, fun hwarmed => ?_⟩
    · rw [← hqueries, Counters.queries, ← hhot, ← hown, ← hstore]
    · exact Trial.ready (hpolled (of_decide_eq_true hwarmed)) hqueries hfits
  · rw [if_neg (Nat.not_lt.mpr hoverflow)] at hchecked
    rw [Trial.report, hchecked]
    rfl

/-! ## a probe in one go -/

omit [ExactStore σ] [Tabled σ] in
theorem warmUp_of_ok (hadd : (c.addAll regions).1 = .ok ())
    (hwarm : ((c.addAll regions).2.warmAll columns).1 = .ok ()) :
    warmUp c regions columns = .ok ((((c.addAll regions).2.warmAll columns).2.drain warmUpMs).1,
      (((c.addAll regions).2.warmAll columns).2.drain warmUpMs).2) := by
  rw [Prod.mk.eta]
  unfold warmUp
  cases hr : c.addAll regions with
  | mk outcome d =>
    rw [hr] at hadd hwarm
    cases hadd
    cases hr' : d.warmAll columns with
    | mk outcome' e =>
      rw [hr'] at hwarm
      cases hwarm
      dsimp only
      rw [hr']

omit [RegionStore σ] [ExactStore σ] [Tabled σ] in
theorem store_warmAll (c : Cache σ) (columns : List Column) :
    (c.warmAll columns).2.store = c.store := by
  rw [Scene.warmAll_eq_schedule, Cache.schedule, Cache.store_submitAll]
  exact (c.insertAllMissing_frame columns).1

omit [Tabled σ] in
/-- what a probe does before its first query are three deeds, none of which goes wrong -/
theorem exists_warmUp (fit : (Scene.start c).Fit) (hf : c.store.failing = false)
    (regions : List Region) (columns : List Column) : ∃ (s₁ s₂ s₃ : Scene σ) (warmed : Bool),
      (Scene.start c).Does (.write (.addAll regions)) s₁ ∧ s₁.Does (.warm columns) s₂ ∧
      s₂.Does .await s₃ ∧ s₃.doing = .drained warmed ∧ s₃.mishap = false ∧
      warmUp c regions columns = .ok (warmed, s₃.cache) := by
  have hadd : (c.addAll regions).1 = .ok () :=
    Cache.renew_ok (c := c.modifyStore (RegionStore.addAll · regions)) fit.named
  have hadds : (Scene.start c).Does (.write (.addAll regions))
      ((Scene.start c).after (c.addAll regions)) := Scene.does_write (.addAll regions) trivial
  have hwarm : ((c.addAll regions).2.warmAll columns).1 = .ok () :=
    Cache.warmAll_ok columns (fit.reach hadds.reach).pool_named
  have hstore : ((c.addAll regions).2.warmAll columns).2.store.failing = false := by
    rw [store_warmAll, Cache.addAll, Cache.store_renew]
    exact hf
  obtain ⟨lost, hawaits, hlost⟩ := Scene.does_await
    (s := ((Scene.start c).after (c.addAll regions)).after
      ((c.addAll regions).2.warmAll columns)) warmUpMs trivial
  refine ⟨_, _, _, _, hadds, Scene.does_warm columns trivial, hawaits, rfl, ?_,
    warmUp_of_ok hadd hwarm⟩
  show (((false || !(c.addAll regions).1.isOk) || _) || lost) = false
  rw [hadd, hlost hstore, hwarm]
  rfl

omit [Tabled σ] in
/-- **A probe in one go is a trial.** -/
theorem exists_trial (fit : (Scene.start c).Fit) (hf : c.store.failing = false)
    (regions : List Region) (columns : List Column) (points : List Block)
    (hroom : points.length * Finding.bytes ≤ maxBytes) :
    ∃ (t : Trial σ) (warmed : Bool) (d : Cache σ),
      ReflTransGen Trial.Step (.start c regions columns points) t ∧ t.scene.mishap = false ∧
      t.Finished ∧ warmUp c regions columns = .ok (warmed, d) ∧
      t.report = (d.crossCheck points).1.map fun check =>
        ⟨warmed, check, (d.crossCheck points).2.counters.snapshot⟩ := by
  obtain ⟨s₁, s₂, s₃, warmed, hadds, hwarms, hawaits, hdoing, hm, hwarmUp⟩ :=
    exists_warmUp fit hf regions columns
  have rest := hawaits.rest
  have hsteps := ((Trial.steps_of_does (t := .start c regions columns points) hadds rfl).trans
    (Trial.steps_of_does hwarms rfl)).trans (Trial.steps_of_does hawaits rfl)
  obtain ⟨queries, hover, hfindings, hasks⟩ := Trial.steps_checkAll points [] rest []
  refine ⟨_, _, _, hsteps.trans hasks, hm, ⟨rfl, rest, hover⟩, hwarmUp, ?_⟩
  have hready : decide (s₃.doing = .drained true) = warmed := by
    rw [hdoing]
    cases warmed <;> rfl
  have hall : queries.filterMap Inquiry.finding? = (s₃.cache.checkAll [] points).1 := hfindings
  rw [Cache.crossCheck_eq hroom, ← hall, ← hready]
  rfl

omit [ExactStore σ] [Tabled σ] in
theorem setUp_eq {settings : Settings} {store : σ} {d : Cache σ} {g : Generator} {warmed : Bool}
    (hmake : Cache.make store settings = .ok c)
    (hlayout : layout plan.regions plan.radius layoutSeed = .ok (regions, g))
    (hcolumns : columnSquare plan.radius = .ok columns)
    (hwarmUp : warmUp c regions columns = .ok (warmed, d)) :
    setUp store plan settings = .ok (warmed, d) := by
  have hmake' : (Cache.make store settings).mapError Failure.settings = .ok c := by
    rw [hmake]
    rfl
  simp only [setUp, bind_of_ok hmake', bind_of_ok hlayout, bind_of_ok hcolumns, hwarmUp]
  rfl

omit [ExactStore σ] [Tabled σ] in
theorem runOver_eq {settings : Settings} {store : σ} {d : Cache σ} {g : Generator} {warmed : Bool}
    (hsetUp : setUp store plan settings = .ok (warmed, d))
    (hpoints : queryPoints plan.queries plan.radius querySeed = .ok (points, g)) :
    runOver store plan settings = ((d.crossCheck points).1.map fun check =>
      ⟨warmed, check, (d.crossCheck points).2.counters.snapshot⟩).mapError .broken := by
  simp only [runOver, bind_of_ok hsetUp, bind_of_ok hpoints]
  cases (d.crossCheck points).1 <;> rfl

omit [ExactStore σ] [Tabled σ] in
/-- a report says whether the columns were loaded in time, and the queries cannot change that -/
theorem warmed_of_runOver {settings : Settings} {store : σ} {r : Report}
    (h : runOver store plan settings = .ok r) :
    (setUp store plan settings).map Prod.fst = .ok r.warmed := by
  cases hs : setUp store plan settings with
  | error failure =>
    rw [runOver, hs] at h
    cases h
  | ok ready =>
    cases hp : queryPoints plan.queries plan.radius querySeed with
    | error failure =>
      simp only [runOver, bind_of_ok hs, hp] at h
      cases h
    | ok asked =>
      rw [runOver_eq hs hp] at h
      cases ho : (ready.2.crossCheck asked.1).1 with
      | error fault =>
        rw [ho] at h
        cases h
      | ok check =>
        rw [ho] at h
        cases h
        rfl

end

/-! ## plans -/

/-- what a plan asks for is laid out, and fits it -/
theorem exists_fits {plan : Plan} (h₁ : 0 ≤ plan.radius.toInt) (h₂ : plan.radius.toInt ≤ maxRadius)
    (hregions : plan.regions * 8 ≤ maxBytes) (hqueries : plan.queries * Finding.bytes ≤ maxBytes) :
    ∃ regions columns points g g', layout plan.regions plan.radius layoutSeed = .ok (regions, g) ∧
      columnSquare plan.radius = .ok columns ∧
      queryPoints plan.queries plan.radius querySeed = .ok (points, g') ∧
      plan.Fits regions columns points := by
  have hradius := h₂
  rw [maxRadius] at hradius
  have hfindings : plan.queries * 24 ≤ maxBytes := hqueries
  have hblocks : plan.queries * 12 ≤ maxBytes := by omega
  obtain ⟨regions, g, hlayout, hlaidOut⟩ := exists_layout h₁ (by omega) hregions layoutSeed
  obtain ⟨columns, hcolumns, hnodup, hlength, -⟩ := exists_columnSquare h₁
  obtain ⟨points, g', hpoints, hasked, hwithin⟩ :=
    exists_queryPoints h₁ (by omega) hblocks querySeed hcolumns
  have hbytes : maxBytes = 2 ^ 63 - 1 := by decide
  refine ⟨regions, columns, points, g, g', hlayout, hcolumns, hpoints,
    ⟨hlaidOut, ?_, hasked, hwithin, by omega, h₂⟩⟩
  rw [List.toFinset_card_of_nodup hnodup, hlength]

/-- in whatever order the host, the workers and the queries of a probe go on, nothing goes wrong, it can
be finished, and it returns what it ought to -/
def Plan.Finishes {σ : Type} [RegionStore σ] (plan : Plan) (found : ℕ) (settings : Settings)
    (store : σ) : Prop :=
  ∃ c regions columns points g g', Cache.make store settings = .ok c ∧
    layout plan.regions plan.radius layoutSeed = .ok (regions, g) ∧
    columnSquare plan.radius = .ok columns ∧
    queryPoints plan.queries plan.radius querySeed = .ok (points, g') ∧
    ∀ t, ReflTransGen Trial.Well (Trial.start c regions columns points) t →
      t.scene.mishap = false ∧
      (t.scene.cache.store.failing = false → ∃ t', ReflTransGen Trial.Well t t' ∧ t'.Finished) ∧
      (t.Finished → plan.Returns found (t.report.mapError .broken))

section
variable {plan : Plan} {settings : Settings} {regions : List Region} {columns : List Column}
  {points : List Block} {g g' : Generator}

theorem returns_of_fits {σ : Type} [RegionStore σ] [ExactStore σ] [Tabled σ] {store : σ}
    (hsound : ExactStore.Sound store) (hempty : Tabled.table store = Table.ofRegions [])
    (accepted : settings.validate = .ok ()) (hname : ¬HoldsZero settings.threadName)
    (hroom : plan.queries * Finding.bytes ≤ maxBytes)
    (hlayout : layout plan.regions plan.radius layoutSeed = .ok (regions, g))
    (hcolumns : columnSquare plan.radius = .ok columns)
    (hpoints : queryPoints plan.queries plan.radius querySeed = .ok (points, g'))
    (hfits : plan.Fits regions columns points) :
    plan.Returns (timesCovered regions points) (runOver store plan settings) ∧
      plan.Finishes (timesCovered regions points) settings store := by
  have hmake : Cache.make store settings = .ok (Cache.ofSettings store settings) := by
    rw [Cache.make, accepted]
    rfl
  have fit := Scene.fit_start hsound accepted hname
  have settled := settled_start store settings
  rw [hempty] at settled
  refine ⟨?_, _, regions, columns, points, g, g', hmake, hlayout, hcolumns, hpoints,
    fun t ht => ?_⟩
  · obtain ⟨t, warmed, d, hsteps, hm, hfinished, hwarmUp, hreport⟩ :=
      exists_trial fit rfl regions columns points (hfits.asked ▸ hroom)
    have hstands := stands_of_steps fit settled rfl hfits.within hsteps hm
    have hcounted := Trial.counted_of_steps rfl hsteps
    rw [runOver_eq (setUp_eq hmake hlayout hcolumns hwarmUp) hpoints, ← hreport]
    exact Trial.returns hstands hcounted hfits hfinished
  · obtain ⟨hstands, hm, -⟩ := stands_of_well fit settled rfl hfits.within ht
    have hcounted := Trial.counted_of_steps rfl
      (Relation.ReflTransGen.mono (fun _ _ hwell => hwell.2.1) _ _ ht)
    exact ⟨hm, hstands.exists_finished, Trial.returns hstands hcounted hfits⟩

end

/-- **A probe returns, and if its columns were loaded in time, the store was never needed.**  `run` and
`runOver` are a probe in one go, whose workers go on only while somebody waits; `Plan.Finishes` is about
all orders of its steps, as long as nobody tells the store to fail and no worker is denied.  The store
may be either of the plain ones, or ask any exact index. -/
theorem run_kept (plan : Plan) (settings : Settings) (hkind : plan.kind ≠ .cached)
    (hradius : 0 ≤ plan.radius.toInt) (hradius' : plan.radius.toInt ≤ maxRadius)
    (hregions : plan.regions * 8 ≤ maxBytes) (hqueries : plan.queries * Finding.bytes ≤ maxBytes)
    (accepted : settings.validate = .ok ()) (hname : ¬HoldsZero settings.threadName) :
    ∃ found, plan.found = .ok found ∧ found ≤ plan.regions * plan.queries ∧
      plan.Returns found (run plan settings) ∧
      plan.Finishes found settings (Choice.ofRegions plan.kind []) ∧
      ∀ {κ : Type} [LinearOrder κ] (index : SpatialIndex κ) [index.Exact],
        plan.Returns found (runOver (Indexed.ofRegions index []) plan settings) ∧
        plan.Finishes found settings (Indexed.ofRegions index []) := by
  obtain ⟨regions, columns, points, g, g', hlayout, hcolumns, hpoints, hfits⟩ :=
    exists_fits hradius hradius' hregions hqueries
  obtain ⟨hreturns, hfinishes⟩ := returns_of_fits (Choice.sound_ofRegions hkind [])
    (Choice.held_ofRegions _ _) accepted hname hqueries hlayout hcolumns hpoints hfits
  refine ⟨timesCovered regions points, ?_, ?_, hreturns, hfinishes, fun index _ => ?_⟩
  · simp only [Plan.found, bind_of_ok hlayout, bind_of_ok hpoints]
    rfl
  · rw [← hfits.laidOut, ← hfits.asked]
    exact timesCovered_le regions points
  · exact returns_of_fits (Indexed.sound_ofRegions []) rfl accepted hname hqueries hlayout hcolumns
      hpoints hfits

/-- five regions, one of them a diamond, and three queries in nine columns -/
def Plan.sample : Plan := { kind := .tree, regions := 5, queries := 3, radius := 1 }

/-- one of the three queries finds a region -/
theorem run_kept_sample :
    (∃ report, run Plan.sample {} = .ok report ∧ report.warmed = true ∧
      report.Kept Plan.sample 1 ∧ report.Ready Plan.sample) ∧
    ∃ (c : Cache Choice) (regions : List Region) (columns : List Column) (points : List Block)
      (t : Trial Choice) (report : Report),
        ReflTransGen Trial.Well (.start c regions columns points) t ∧ t.Finished ∧
        t.report = .ok report ∧ report.Kept Plan.sample 1 := by
  obtain ⟨found, hfound, -, hreturns, ⟨c, regions, columns, points, g, g', hmake, -, -, -, hall⟩, -⟩ :=
    run_kept Plan.sample {} (by decide) (by decide) (by decide) (by decide +kernel)
      (by decide +kernel) (by decide +kernel) (by decide)
  have hone : Plan.sample.found = .ok 1 := by decide +kernel
  cases hfound.symm.trans hone
  obtain ⟨report, hrun, hkept⟩ := hreturns.report (by decide)
  have hsetUp : (setUp (Choice.ofRegions .tree []) Plan.sample {}).map Prod.fst = .ok true := by
    decide +kernel
  have hwarmed : report.warmed = true :=
    Except.ok.inj ((warmed_of_runOver hrun).symm.trans hsetUp)
  refine ⟨⟨report, hrun, hwarmed, hkept, hkept.ready hwarmed⟩, ?_⟩
  obtain ⟨-, rfl⟩ := Cache.make_eq_ok hmake
  obtain ⟨t, hsteps, hfinished⟩ := (hall _ .refl).2.1 rfl
  obtain ⟨report', hreport, hkept'⟩ := ((hall t hsteps).2.2 hfinished).report (by decide)
  refine ⟨_, regions, columns, points, t, report', hsteps, hfinished, ?_, hkept'⟩
  cases hr : t.report with
  | error fault =>
    rw [hr] at hreport
    cases hreport
  | ok r =>
    rw [hr] at hreport
    cases hreport
    rfl

/-- more blocks than any list can hold -/
theorem run_capacity :
    ({} : Settings).validate = .ok () ∧ ¬HoldsZero ({} : Settings).threadName ∧
      run { kind := .table, regions := 0, queries := 2 ^ 64 - 1, radius := 0 } {} =
        .error (.broken .capacity) :=
  ⟨by decide +kernel, by decide, by decide +kernel⟩

end Probe
end Precinct
