import Mathlib
import Precinct.Proofs.Cache.Freshness

/-!
# What a cache keeps in order

Clients use a cache at once, and the workers go on meanwhile.

* `Cache.Lists`        what the sheet of a column lists: the regions of the store that intersect the
                       region over the column, in strict layers (`lists_columnRegions`);
* `Refiled.sheet_of_loaded`  a step leaves a loaded sheet as it is, whoever still has it in hand;
* `Cache.drop_of_unknown`  a column that is not known has nothing to be forgotten;
* `IsRun.current`      while no client is in the middle of a write, loaded sheets of known columns hold
                       what they ought to;
* `IsRun.perform`      a client at rest may do any operation at any moment;
* `inOrder_of_run`     **the cache is in order at every moment of every run**, except that sheets list
                       what the store holds only while no write is under way (`InOrder.lists`).

A write changes the store first and begins an epoch then.  In between a loaded sheet of a known column
still lists what the store held before, and `InOrder.listed` says so.

A sheet is never made anew.  A column that is forgotten and becomes known again gets a sheet of its
own, and so does every known column when an epoch begins, so it does not matter what is published to
the sheets left behind.
-/

namespace Precinct
open Relation (ReflTransGen)

/-- what the sheet of a column lists: the regions of the store that may hold a block of it, each once,
the higher priority first, then the smaller name -/
def Cache.Lists {σ : Type} [RegionStore σ] (c : Cache σ) (column : Column) (regions : List Region) :
    Prop :=
  (∀ r, r ∈ regions ↔ r ∈ RegionStore.values c.store.store ∧
    r.intersects (Region.column column) = true) ∧
  regions.Pairwise Region.Above

theorem Cache.lists_columnRegions {σ : Type} [RegionStore σ] [ExactStore σ] {c : Cache σ}
    (h : ExactStore.Sound c.store.store) (column : Column) :
    c.Lists column (c.columnRegions column) := by
  refine ⟨fun r => ?_, Region.strict_inLayers ((ExactStore.named h).filter _)⟩
  rw [Cache.columnRegions, Region.mem_inLayers, List.mem_filter]

/-! ## loaded sheets -/

section
variable {σ : Type} {c c' : Cache σ} {i : Nat} {regions : List Region}

theorem Sheet.publish_of_loaded {s : Sheet} {old : List Region} (h : s.regions = some old)
    (regions : List Region) : s.publish regions = (false, s) := by
  rw [Sheet.publish, h]

/-- a number that no sheet has is that of no loaded sheet -/
theorem Filed.lt_of_loaded (h : Filed c) (hl : (c.sheet i).regions = some regions) :
    i < c.sheets.size := by
  rw [← h.numbered]
  by_contra hnone
  rw [Cache.sheet, Std.ExtTreeMap.getD_eq_fallback hnone] at hl
  cases hl

variable [RegionStore σ]

/-- a survey leaves a loaded sheet as it is, also when it has something to publish to it -/
theorem Cache.Surveyed.sheet_of_loaded {k n : Nat} {v : Survey} {r : SurveyResult}
    (h : Cache.Surveyed c k n v r c') (hl : (c.sheet i).regions = some regions) :
    c'.sheet i = c.sheet i := by
  cases h with
  | @published column j regions' head phase =>
    rw [Cache.sheet_publishSheet]
    split
    · rename_i he
      rw [← he, Sheet.publish_of_loaded hl]
    · rfl
  | _ => rfl

/-- **Every step leaves a loaded sheet as it is.** -/
theorem Cache.Refiled.sheet_of_loaded (h : c.Refiled c') (hf : Filed c)
    (hcurrent : c.current < c.pools.size) (hl : (c.sheet i).regions = some regions) :
    c'.sheet i = c.sheet i := by
  have hi := hf.lt_of_loaded hl
  cases h with
  | left leaves => exact Cache.sheet_congr leaves.sheets i
  | asked looks => exact Cache.sheet_congr looks.frame.2.2.2.2.1 i
  | known columns => exact (hf.insertAllMissing_of_lt hi columns).1
  | forgotten column => rfl
  | turned columns leaves =>
    rw [Cache.sheet_congr leaves.sheets]
    exact ((hf.turn hcurrent).insertAllMissing_of_lt hi columns).1
  | worked works =>
    rcases works.cases with ⟨m, p, -, rfl⟩ | ⟨v, r, d, -, hdoes, rfl⟩
    · rfl
    · exact hdoes.sheet_of_loaded hl

omit [RegionStore σ] in
/-- **A column that is not known has nothing to be forgotten**: its sheet is not the one that answered
last. -/
theorem Cache.drop_of_unknown (hf : Filed c) {column : Column} (h : c.sheetOf? column = none) :
    c.drop column = c := by
  have hkept : (if c.recent.any fun i => (c.sheet i).column == column then none else c.recent) =
      c.recent := by
    cases hr : c.recent with
    | none => rfl
    | some i =>
      refine if_neg fun he => ?_
      rw [Option.any_some, beq_iff_eq] at he
      rw [← he, (hf.recent i hr).2.1] at h
      cases h
  rw [Cache.drop, Grid.remove_of_get? h, hkept]

end

namespace Crowd
variable {σ : Type} [RegionStore σ] {run : Nat → Crowd σ}

namespace IsRun
variable {store : σ} {settings : Settings}

/-- **What is loaded stays as it is**, whether its column is known any longer or not. -/
theorem sheet_of_loaded (h : IsRun (.ofSettings store settings) run) {t u i : Nat}
    {regions : List Region} (hl : ((run t).cache.sheet i).regions = some regions) (htu : t ≤ u) :
    (run u).cache.sheet i = (run t).cache.sheet i := by
  induction u, htu using Nat.le_induction with
  | base => rfl
  | succ u htu ih =>
    rcases h.acts u with he | ⟨n, s, makes, he⟩
    · rw [he]
      exact ih
    · have horder := h.orderly u
      have hcrews := horder.crews n
      rw [he, ← ih]
      exact (makes.refiled hcrews).sheet_of_loaded horder.filed hcrews.current (ih.symm ▸ hl)

/-- **While no client is in the middle of a write**, loaded sheets hold what they ought to. -/
theorem current [ExactStore σ] (hstore : ExactStore.Sound store)
    (h : IsRun (.ofSettings store settings) run) {t : Nat}
    (hw : ∀ n, (run t).doing n ≠ .writing) : Current (run t).cache := by
  induction t with
  | zero =>
    rw [h.start]
    exact reported_start store settings
  | succ t ih =>
    rcases h.acts t with he | ⟨n, s, makes, he⟩
    · rw [he] at hw ⊢
      exact ih hw
    · rw [he] at hw ⊢
      have horder := h.orderly t
      have hothers : ∀ m ≠ n, (run t).doing m ≠ .writing := by
        intro m hm
        have := hw m
        rwa [doing_after, if_neg hm] at this
      have hlast : s.doing ≠ .writing := by
        have := hw n
        rwa [doing_after, if_pos rfl] at this
      -- the client that acts may have been the last one to write
      refine makes.current (horder.crews n) horder.filed (h.sound hstore t) (fun hn => ih ?_) hlast
      intro m
      by_cases hm : m = n
      · exact hm ▸ hn
      · exact hothers m hm

/-- **A client at rest may do any operation at any moment**, and the others are not touched. -/
theorem perform {c : Cache σ} (h : IsRun c run) {t n : Nat} (rest : ((run t).doing n).AtRest)
    (op : CacheOp) (shelf : Shelf) (hop : ∀ behind, op ≠ .behind behind) :
    ∃ (run' : Nat → Crowd σ) (u : Nat), IsRun c run' ∧ t ≤ u ∧ (∀ v ≤ t, run' v = run v) ∧
      (run' u).cache = (op.perform (run t).cache shelf).2.1 ∧ ((run' u).doing n).AtRest ∧
      ∀ m ≠ n, (run' u).doing m = (run t).doing m := by
  obtain ⟨s, hreach, hrest, hcache⟩ :=
    Scene.leads_perform (s := (run t).seenBy n) op hop shelf rest
  obtain ⟨run', u, hrun, htu, hu, hsame⟩ := h.goOn t (steps_of_reach hreach)
  refine ⟨run', u, hrun, htu, hsame, ?_, ?_, fun m hm => ?_⟩
  · rw [hu]
    exact hcache
  · rw [hu, doing_after, if_pos rfl]
    exact hrest
  · rw [hu, doing_after, if_neg hm]

end IsRun

/-- what there is to say of the columns and the sheets of a cache at a moment -/
structure InOrder (c : Cache σ) (run : Nat → Crowd σ) (t : Nat) : Prop where
  /-- a known column has a sheet of its own -/
  keyed : ∀ column i, (run t).cache.sheetOf? column = some i →
    ((run t).cache.sheet i).column = column
  /-- it lists what the store holds, once it is loaded -/
  lists : (∀ n, (run t).doing n ≠ .writing) → ∀ column i regions,
    (run t).cache.sheetOf? column = some i → ((run t).cache.sheet i).regions = some regions →
    (run t).cache.Lists column regions
  /-- also between the two halves of a write it lists what the store held in the present epoch -/
  listed : ∀ column i regions,
    (run t).cache.sheetOf? column = some i → ((run t).cache.sheet i).regions = some regions →
    ∃ u ≤ t, (run u).cache.epoch = (run t).cache.epoch ∧ (run u).cache.Lists column regions
  /-- a loaded sheet stays as it is, also when its column is known no longer -/
  stays : ∀ i regions, ((run t).cache.sheet i).regions = some regions →
    ∀ u ≥ t, (run u).cache.sheet i = (run t).cache.sheet i
  /-- the sheet that answered last is loaded, and it is the sheet of a known column -/
  recent : ∀ i, (run t).cache.recent = some i → (run t).cache.settings.hotColumn = true ∧
    (run t).cache.sheetOf? ((run t).cache.sheet i).column = some i ∧
    ((run t).cache.sheet i).isLoaded = true
  /-- so forgetting a column that is not known changes nothing -/
  drop : ∀ column, (run t).cache.sheetOf? column = none →
    (run t).cache.drop column = (run t).cache
  /-- whatever a client does next makes a run again, if the store is changed through the cache only -/
  goesOn : ∀ n, ((run t).doing n).AtRest → ∀ (op : CacheOp) (shelf : Shelf),
    (∀ behind, op ≠ .behind behind) →
    ∃ (run' : Nat → Crowd σ) (u : Nat), IsRun c run' ∧ t ≤ u ∧ (∀ v ≤ t, run' v = run v) ∧
      (run' u).cache = (op.perform (run t).cache shelf).2.1 ∧ ((run' u).doing n).AtRest ∧
      ∀ m ≠ n, (run' u).doing m = (run t).doing m

end Crowd

open Crowd in
/-- **A cache is in order at every moment of every run**: known columns have their own sheets, loaded
sheets never change, and the sheet that answered last is one of them.  Loaded sheets of known columns
list what the store holds, but for the moments at which a client has changed the store and not yet begun
the epoch: then they list what the store held in the present one. -/
theorem inOrder_of_run {σ : Type} [RegionStore σ] [ExactStore σ] {store : σ} {settings : Settings}
    {c : Cache σ} {run : Nat → Crowd σ} (hstore : ExactStore.Sound store)
    (hc : Cache.make store settings = .ok c) (h : IsRun c run) (t : Nat) : InOrder c run t := by
  obtain ⟨-, rfl⟩ := Cache.make_eq_ok hc
  have hfiled := (h.orderly t).filed
  refine ⟨fun column i hi => (hfiled.columns column i hi).2, fun hw column i regions hi hr => ?_,
    fun column i regions hi hr => ?_, fun i regions hr u hu => h.sheet_of_loaded hr hu,
    hfiled.recent, fun column => Cache.drop_of_unknown hfiled,
    fun n rest op shelf hop => h.perform rest op shelf hop⟩
  · rw [(h.current hstore hw).loaded column i regions hi hr]
    exact Cache.lists_columnRegions (h.sound hstore t) column
  · obtain ⟨u, hu, hepoch, hsaid⟩ := (h.reported hstore t).loaded column i regions hi hr
    refine ⟨u, hu, hepoch, ?_⟩
    rw [hsaid]
    exact Cache.lists_columnRegions (h.sound hstore u) column

/-- a column was surveyed while there was no region; one was added, and it was surveyed anew -/
def Cache.resurveyed : Cache Table :=
  ((((Cache.surveyed ({} : Table) ⟨0, 3, 1⟩).add .hourglass).2.drain 10).2.regionsAt ⟨0, 3, 1⟩).2

theorem Scene.leads_resurveyed :
    (Scene.start (Cache.ofSettings ({} : Table) {})).Leads Cache.resurveyed :=
  (((leads_surveyed ({} : Table) ⟨0, 3, 1⟩).add .hourglass).drain 10).regionsAt ⟨0, 3, 1⟩

open Crowd in
/-- the second sheet of the column lists the region, and the first one is still as it was -/
theorem hourglass_in_order_resurveyed : ∃ (run : Nat → Crowd Table) (t : Nat),
    IsRun (.ofSettings {} {}) run ∧ (run t).cache = Cache.resurveyed ∧
      (∀ n, (run t).doing n ≠ .writing) ∧ InOrder (.ofSettings {} {}) run t ∧
      Cache.resurveyed.recent = some 1 ∧ Cache.resurveyed.sheetOf? ⟨0, 0⟩ = some 1 ∧
      (Cache.resurveyed.sheet 0).regions = some [] ∧
      (Cache.resurveyed.sheet 1).regions = some [.hourglass] ∧
      Cache.resurveyed.Lists ⟨0, 0⟩ [.hourglass] ∧
      Cache.resurveyed.sheetOf? ⟨1, 0⟩ = none ∧
      Cache.resurveyed.drop ⟨1, 0⟩ = Cache.resurveyed := by
  obtain ⟨s, hreach, hrest, hcache⟩ := Scene.leads_resurveyed
  obtain ⟨run, t, hrun, -, hs, -⟩ := (IsRun.still (.ofSettings ({} : Table) {})).goOn 0
    (steps_of_reach (s := { cache := .ofSettings ({} : Table) {} }) (n := 0) hreach)
  have hlast : (run t).cache = Cache.resurveyed := by rw [hs]; exact hcache
  have hdone : ∀ n, (run t).doing n ≠ .writing := by
    intro n
    rw [hs, doing_after]
    split
    · exact hrest.ne_writing
    · nofun
  have hmake : Cache.make ({} : Table) {} = .ok (Cache.ofSettings {} {}) := rfl
  have horder := inOrder_of_run Table.keyed_empty hmake hrun t
  have hsheet : Cache.resurveyed.sheetOf? ⟨0, 0⟩ = some 1 := by decide +kernel
  have hloaded : (Cache.resurveyed.sheet 1).regions = some [.hourglass] := by decide +kernel
  have hnone : Cache.resurveyed.sheetOf? ⟨1, 0⟩ = none := by decide +kernel
  have hlists := horder.lists hdone ⟨0, 0⟩ 1 [.hourglass]
  have hdrop := horder.drop ⟨1, 0⟩
  rw [hlast] at hlists hdrop
  exact ⟨run, t, hrun, hlast, hdone, horder, by decide +kernel, hsheet, by decide +kernel, hloaded,
    hlists hsheet hloaded, hnone, hdrop hnone⟩

end Precinct
