import Mathlib
import Precinct.Proofs.Cache.Exactness
import Precinct.Proofs.Cache.Sturdy
import Precinct.Proofs.Cache.Tracks

/-!
# Settings out of sight

* `Scene.Alike`        what a client sees of two caches, however far their workers are;
* `Scene.AlikeInFull`  and what it sees when no work is left;
* `Step.hotColumnHits`  no sheet is kept at hand against the settings;
* `alike_of_runs`      **two caches over equal stores that a client does the same with are alike**,
                       under any settings that pass the checks.

Neither cache is compared with the other: both are what one without settings would be
(`Scene.Run.tracks`).  So their workers need not go on in step, and a wait may last as long as it
likes in each.
-/

namespace Precinct
open Relation (ReflTransGen)

namespace Scene
variable {σ : Type} [RegionStore σ]

/-- what a client sees of two caches, however far their workers are -/
structure Alike (s t : Scene σ) : Prop where
  regionsAt : ∀ p, (s.cache.regionsAt p).1 = (t.cache.regionsAt p).1
  /-- also if the workers went on while the block was looked up -/
  answered : ∀ p regions regions', s.doing = .answered p regions → t.doing = .answered p regions' →
    regions = regions'
  knownColumns : s.cache.knownColumns = t.cache.knownColumns
  size : RegionStore.size s.cache = RegionStore.size t.cache
  isDirty : RegionStore.isDirty s.cache = RegionStore.isDirty t.cache
  rebuilds : s.cache.counters.rebuilds = t.cache.counters.rebuilds
  tasksCancelled : s.cache.counters.tasksCancelled = t.cache.counters.tasksCancelled
  storeFallbacks : s.cache.counters.storeFallbacks = t.cache.counters.storeFallbacks
  /-- queries answered from a sheet, not how many of them from the sheet that answered last -/
  hits : s.cache.counters.hotColumnHits + s.cache.counters.columnHits =
    t.cache.counters.hotColumnHits + t.cache.counters.columnHits
  containingCalls : s.cache.store.containingCalls = t.cache.store.containingCalls

/-- and what it sees when no work is left -/
structure AlikeInFull (s t : Scene σ) : Prop extends Alike s t where
  isLoaded : ∀ column, s.cache.isLoaded column = t.cache.isLoaded column
  columnsLoaded : s.cache.counters.columnsLoaded = t.cache.counters.columnsLoaded
  intersectingCalls : s.cache.store.intersectingCalls = t.cache.store.intersectingCalls

end Scene

section
variable {σ : Type} [RegionStore σ] {s s' : Scene σ}

/-! ## the sheet that answered last -/

/-- a cache that is not to keep it at hand never asks it first -/
theorem Step.hotColumnHits (hs : Step s s') (hcold : s.cache.settings.hotColumn = false) :
    s'.cache.counters.hotColumnHits = s.cache.counters.hotColumnHits := by
  cases hs.counted with
  | same counters => rw [counters]
  | @asked p found doing cache =>
    obtain ⟨hot, own, hcounters, -, hzero⟩ := s.cache.counters_resolve p.column
    rw [cache, hcounters, hzero hcold]
    rfl
  | fellBack doing counters => rw [counters]
  | renewed counters => rw [counters]
  | worked makes => rw [← (Cache.Stirs.works makes).leftAlone.counters]

theorem Scene.Reach.hotColumnHits (h : s.Reach s') (hcold : s.cache.settings.hotColumn = false) :
    s'.cache.counters.hotColumnHits = s.cache.counters.hotColumnHits := by
  refine (h.invariant (P := fun t => t.cache.settings.hotColumn = false ∧
    t.cache.counters.hotColumnHits = s.cache.counters.hotColumnHits) ?_ ⟨hcold, rfl⟩).2
  rintro t u ⟨ht, hhits⟩ hstep
  exact ⟨hstep.settings ▸ ht, (hstep.hotColumnHits ht).trans hhits⟩

/-! ## two caches -/

variable [ExactStore σ] [Tabled σ] {P : Prompt} {t : Scene σ} {schedules : Bool}

omit [ExactStore σ] in
/-- just the known columns are loaded -/
theorem Settled.isLoaded {c : Cache σ} (h : Settled P c) (column : Column) :
    c.isLoaded column = decide (column ∈ P.known) := by
  rw [Bool.eq_iff_iff, decide_eq_true_iff, h.known]
  refine ⟨fun hl => ?_, h.allLoaded column⟩
  rw [Cache.isLoaded, Option.any_eq_true] at hl
  obtain ⟨i, hi, -⟩ := hl
  rw [hi]
  rfl

omit [ExactStore σ] in
theorem Resembles.regionsOver {c : Cache σ} (h : Resembles P c) (p : Block) :
    c.regionsOver p = Region.inLayers (P.table.contents.regions.filter (·.contains p)) := by
  rw [Cache.regionsOver, Tabled.values_eq, h.table]

/-- **Two caches that both do as one without settings would** are alike. -/
theorem Tracks.alike (h : Tracks P schedules s) (h' : Tracks P schedules t) (he : Exact s)
    (he' : Exact t) (hsize : ∀ u : σ, RegionStore.size u = (Tabled.table u).contents.size) :
    s.Alike t := by
  have hs := h.resembles
  have ht := h'.resembles
  constructor
  · intro p
    rw [he.regionsAt_eq h.rest.ne_writing, he'.regionsAt_eq h'.rest.ne_writing, hs.regionsOver,
      ht.regionsOver]
  · intro p regions regions' hasked hasked'
    rw [he.answered p regions hasked, he'.answered p regions' hasked', hs.regionsOver,
      ht.regionsOver]
  · exact hs.size.trans ht.size.symm
  · show RegionStore.size s.cache.store.store = RegionStore.size t.cache.store.store
    rw [hsize, hsize, hs.table, ht.table]
  · show RegionStore.isDirty s.cache.store.store = RegionStore.isDirty t.cache.store.store
    rw [Tabled.isDirty_eq, Tabled.isDirty_eq, hs.table, ht.table]
  · exact hs.renewals.trans ht.renewals.symm
  · exact hs.cancelled.trans ht.cancelled.symm
  · exact hs.fallbacks.trans ht.fallbacks.symm
  · exact hs.hits.trans ht.hits.symm
  · exact hs.containing.trans ht.containing.symm

omit [ExactStore σ] in
theorem Scene.Alike.inFull (h : s.Alike t) (hs : Settled P s.cache) (ht : Settled P t.cache) :
    s.AlikeInFull t :=
  ⟨h, fun column => (hs.isLoaded column).trans (ht.isLoaded column).symm,
    hs.loaded.trans ht.loaded.symm, hs.calls.trans ht.calls.symm⟩

/-- a cache over a store, after some deeds that nothing went wrong with -/
theorem tracks_of_run {store : σ} {settings : Settings} {c : Cache σ} {ds : List Deed}
    (h : ExactStore.Sound store) (hc : Cache.make store settings = .ok c)
    (hrun : (Scene.start c).Run ds s) (hm : s.mishap = false) :
    Tracks (Prompt.run { table := Tabled.table store } ds) (ds.head?.any Deed.schedules) s ∧
      Exact s ∧ (settings.hotColumn = false → s.cache.counters.hotColumnHits = 0) := by
  obtain ⟨hv, rfl⟩ := Cache.make_eq_ok hc
  have hcoverage : Coverage (Scene.start (Cache.ofSettings store settings)) :=
    coverage_of_reach (Settings.batchSize_of_validate hv) .refl
  exact ⟨hrun.tracks hcoverage trivial (settled_start store settings) hm, exact_of_reach h hrun.reach,
    fun hcold => hrun.reach.hotColumnHits hcold⟩

theorem alike_of_sound {store store' : σ} {settings settings' : Settings} {c c' : Cache σ}
    {ds : List Deed} (hsize : ∀ u : σ, RegionStore.size u = (Tabled.table u).contents.size)
    (h : ExactStore.Sound store) (h' : ExactStore.Sound store')
    (hequal : Tabled.table store = Tabled.table store') (hc : Cache.make store settings = .ok c)
    (hc' : Cache.make store' settings' = .ok c') (hs : (Scene.start c).Run ds s)
    (ht : (Scene.start c').Run ds t) (hm : s.mishap = false) (hm' : t.mishap = false) :
    s.Alike t ∧ (ds.head?.any Deed.schedules = false → s.AlikeInFull t) ∧
      (settings.hotColumn = false → s.cache.counters.hotColumnHits = 0) := by
  obtain ⟨htracks, hexact, hcold⟩ := tracks_of_run h hc hs hm
  obtain ⟨htracks', hexact', -⟩ := tracks_of_run h' hc' ht hm'
  rw [← hequal] at htracks'
  have halike := htracks.alike htracks' hexact hexact' hsize
  exact ⟨halike, fun hd => halike.inFull (htracks.settled hd) (htracks'.settled hd), hcold⟩

end

/-- **Settings never change what a client sees.**  Two caches over equal stores, under settings that
pass the checks, that a client does the same with: it awaits whatever work it schedules, every worker
starts and no survey is lost, as is so unless the store is told to fail or the system denies a worker
(`mishap_of_steps`).  Then they are alike after everything it does, and in full but for the moment before it awaits.  How many
queries the sheet that answered last has answered may differ, and it answers none if it is not to be
kept at hand. -/
theorem alike_of_runs :
    (∀ (regions : List Region) (store : Table) (settings settings' : Settings)
      (c c' : Cache Table) (ds : List Deed) (s t : Scene Table),
      ReflTransGen StoreStep (Table.ofRegions regions) store →
      Cache.make store settings = .ok c → Cache.make store settings' = .ok c' →
      (Scene.start c).Run ds s → (Scene.start c').Run ds t → s.mishap = false → t.mishap = false →
      s.Alike t ∧ (ds.head?.any Deed.schedules = false → s.AlikeInFull t) ∧
        (settings.hotColumn = false → s.cache.counters.hotColumnHits = 0)) ∧
    (∀ (regions regions' : List Region) (store store' : Tree) (settings settings' : Settings)
      (c c' : Cache Tree) (ds : List Deed) (s t : Scene Tree),
      ReflTransGen StoreStep (Tree.ofRegions regions) store →
      ReflTransGen StoreStep (Tree.ofRegions regions') store' →
      -- what was found last is kept for the next query, and does not count
      store.table = store'.table →
      Cache.make store settings = .ok c → Cache.make store' settings' = .ok c' →
      (Scene.start c).Run ds s → (Scene.start c').Run ds t → s.mishap = false → t.mishap = false →
      s.Alike t ∧ (ds.head?.any Deed.schedules = false → s.AlikeInFull t) ∧
        (settings.hotColumn = false → s.cache.counters.hotColumnHits = 0)) ∧
    -- nor does the order in which a spatial index finds regions
    ∀ {κ : Type} [LinearOrder κ] (index : SpatialIndex κ) [index.Exact]
      (regions regions' : List Region) (store store' : Indexed index)
      (settings settings' : Settings) (c c' : Cache (Indexed index)) (ds : List Deed)
      (s t : Scene (Indexed index)),
      ReflTransGen StoreStep (Indexed.ofRegions index regions) store →
      ReflTransGen StoreStep (Indexed.ofRegions index regions') store' →
      store.tree.table = store'.tree.table →
      Cache.make store settings = .ok c → Cache.make store' settings' = .ok c' →
      (Scene.start c).Run ds s → (Scene.start c').Run ds t → s.mishap = false → t.mishap = false →
      s.Alike t ∧ (ds.head?.any Deed.schedules = false → s.AlikeInFull t) ∧
        (settings.hotColumn = false → s.cache.counters.hotColumnHits = 0) := by
  refine ⟨?_, ?_, ?_⟩
  · intro regions store settings settings' c c' ds s t hstore hc hc' hs ht hm hm'
    have hsound := ExactStore.sound_of_steps (Table.keyed_ofRegions regions) hstore
    exact alike_of_sound (fun _ => rfl) hsound hsound rfl hc hc' hs ht hm hm'
  · intro regions regions' store store' settings settings' c c' ds s t hstore hstore' hequal hc hc' hs
      ht hm hm'
    exact alike_of_sound (fun _ => rfl)
      (ExactStore.sound_of_steps (Tree.sound_ofRegions regions) hstore)
      (ExactStore.sound_of_steps (Tree.sound_ofRegions regions') hstore') hequal hc hc' hs ht hm hm'
  · intro κ _ index _ regions regions' store store' settings settings' c c' ds s t hstore hstore'
      hequal hc hc' hs ht hm hm'
    exact alike_of_sound (fun _ => rfl)
      (ExactStore.sound_of_steps (Indexed.sound_ofRegions regions) hstore)
      (ExactStore.sound_of_steps (Indexed.sound_ofRegions regions') hstore') hequal hc hc' hs ht hm hm'

/-- two columns are surveyed, a region is added, and a block is asked for twice -/
def Deed.sample : List Deed :=
  [.ask ⟨0, 3, 1⟩, .ask ⟨0, 3, 1⟩, .await, .write (.add Region.hourglass), .await,
    .warm [⟨0, 0⟩, ⟨1, 0⟩]]

section
variable (settings : Settings)

/-- two columns are scheduled -/
def Cache.hinted : Except Fault Unit × Cache Table :=
  (Cache.ofSettings (Table.ofRegions [Region.bar]) settings).warmAll [⟨0, 0⟩, ⟨1, 0⟩]

/-- and surveyed; a region is added -/
def Cache.extended : Except Fault Unit × Cache Table :=
  (((Cache.hinted settings).2.drain 10).2.modifyStore (Write.add Region.hourglass).apply).renew

/-- and the columns are surveyed again -/
def Cache.extendedAndAsked : Cache Table :=
  ((((Cache.extended settings).2.drain 10).2.regionsAt ⟨0, 3, 1⟩).2.regionsAt ⟨0, 3, 1⟩).2

theorem Cache.runsTo_sample (hhint : (Cache.hinted settings).1.isOk = true)
    (hextend : (Cache.extended settings).1.isOk = true)
    (hdrain : ((Cache.hinted settings).2.drain 10).1 = true)
    (hdrain' : ((Cache.extended settings).2.drain 10).1 = true)
    (hwell : (Cache.hinted settings).2.store.failing = false)
    (hwell' : (Cache.extended settings).2.store.failing = false) :
    (Scene.start (Cache.ofSettings (Table.ofRegions [Region.bar]) settings)).RunsTo Deed.sample
      (Cache.extendedAndAsked settings) := by
  have hstart : (Scene.start (Cache.ofSettings (Table.ofRegions [Region.bar]) settings)).RunsTo []
      (Cache.ofSettings (Table.ofRegions [Region.bar]) settings) := ⟨_, .nil, trivial, rfl, rfl⟩
  have hsurveyed := (hstart.warm rfl _ hhint).await hwell hdrain
  have hextended := (hsurveyed.write rfl (.add Region.hourglass) hextend).await hwell' hdrain'
  exact (hextended.ask rfl _).ask rfl _

end

/-- one worker, one column at a time, and no sheet kept at hand -/
def Settings.frugal : Settings := { maxThreads := 1, batchSize := 1, hotColumn := false }

theorem hourglass_asked_twice : ∃ s t : Scene Table,
    (Scene.start (Cache.ofSettings (Table.ofRegions [Region.bar]) {})).Run Deed.sample s ∧
    (Scene.start (Cache.ofSettings (Table.ofRegions [Region.bar]) Settings.frugal)).Run Deed.sample t ∧
    s.cache.counters.hotColumnHits = 1 ∧ t.cache.counters.hotColumnHits = 0 ∧
    s.cache.counters.columnsLoaded = 4 ∧ s.AlikeInFull t := by
  obtain ⟨s, hs, -, hm, hcache⟩ := Cache.runsTo_sample {} (by decide +kernel) (by decide +kernel)
    (by decide +kernel) (by decide +kernel) (by decide +kernel) (by decide +kernel)
  obtain ⟨t, ht, -, hm', -⟩ := Cache.runsTo_sample Settings.frugal (by decide +kernel)
    (by decide +kernel) (by decide +kernel) (by decide +kernel) (by decide +kernel)
    (by decide +kernel)
  obtain ⟨-, hfull, -⟩ := alike_of_runs.1 [Region.bar] _ {} Settings.frugal _ _ Deed.sample s t
    .refl rfl rfl hs ht hm hm'
  obtain ⟨-, -, hcold⟩ := alike_of_runs.1 [Region.bar] _ Settings.frugal {} _ _ Deed.sample t s
    .refl rfl rfl ht hs hm' hm
  refine ⟨s, t, hs, ht, ?_, hcold rfl, ?_, hfull rfl⟩
  · rw [hcache]
    decide +kernel
  · rw [hcache]
    decide +kernel

end Precinct
