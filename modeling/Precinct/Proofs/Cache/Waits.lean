import Mathlib
import Precinct.Proofs.Cache.Coverage
import Precinct.Proofs.Registry.Frame

/-!
# What the waits of a cache promise

* `Cache.AllLoaded`    every known column is loaded, `Cache.Outstanding` one is not, and a pool that a
                       drain gave up on has a survey that is yet to load it;
* `Cache.Busy`         a pool has a live worker and a job, running or queued;
* `allLoaded_iff_of_drained`  **when scheduled work is reported finished**, what may be left is with
                       the pools that an earlier drain gave up on;
* `idle_iff_of_dismissed`  **when all surveys are reported stopped**, likewise.

A drain waits for the pool that it replaces and for no other.  A pool that it gave up on is not
cancelled, is on no list, and no later wait looks at it.
-/

namespace Precinct

namespace Cache
variable {σ : Type}

/-- every known column is loaded -/
def AllLoaded (c : Cache σ) : Prop :=
  ∀ column, (c.sheetOf? column).isSome = true → c.isLoaded column = true

/-- a known column is not loaded, and one of some pools has a survey that is yet to load it -/
def Outstanding (c : Cache σ) (pools : List Nat) (column : Column) : Prop :=
  ∃ k ∈ pools, ∃ i, c.sheetOf? column = some i ∧ (c.sheet i).isLoaded = false ∧ c.Awaits k column i

/-- a pool has a live worker and a job, running or queued -/
def Busy (c : Cache σ) (k : Nat) : Prop := c.isLive k = true ∧ (c.pool k).jobs ≠ []

end Cache

section
variable {σ : Type} {s : Scene σ}

/-! ## the pools that are left -/

theorem Cache.Busy.lt_size {c : Cache σ} {k : Nat} (h : c.Busy k) : k < c.pools.size :=
  Cache.lt_size_of_pool fun hd => h.2 (hd ▸ rfl)

/-- **Once dismissed pools have stopped**, a busy pool is one that a drain gave up on. -/
theorem Custody.abandoned_of_busy (h : Custody s) (hd : s.doing = .dismissed true) {k : Nat}
    (hk : s.cache.Busy k) : k ∈ s.abandoned := by
  obtain ⟨hlive, hjobs⟩ := id hk
  cases h.kept k hk.lt_size with
  | current here =>
    subst here
    exact absurd (h.fresh (by rw [hd]; trivial)) hjobs
  | dismissed here =>
    rw [h.taken (by rw [hd]; trivial)] at here
    exact absurd here List.not_mem_nil
  | waited here =>
    rw [hd] at here
    exact absurd here List.not_mem_nil
  | abandoned here => exact here
  | empty none =>
    rw [(Cache.isLive_eq_false_iff (h.sound k)).mpr none] at hlive
    cases hlive

/-- **Once a pool was drained**, what is awaited is awaited of a pool that a drain gave up on. -/
theorem Custody.abandoned_of_awaits (h : Custody s) (hm : s.mishap = false) {b : Bool}
    (hd : s.doing = .drained b) {k : Nat} {column : Column} {i : Nat}
    (hk : s.cache.Awaits k column i) : k ∈ s.abandoned := by
  obtain ⟨hgoes, v, hv, -⟩ := id hk
  cases h.kept k hk.lt_size with
  | current here =>
    subst here
    rw [h.fresh (by rw [hd]; trivial)] at hv
    exact absurd hv List.not_mem_nil
  | dismissed here =>
    rw [h.cancelled k here] at hgoes
    cases hgoes
  | waited here =>
    rw [hd] at here
    exact absurd here List.not_mem_nil
  | abandoned here => exact here
  | empty none =>
    -- a pool without workers has nothing queued
    have hempty : (s.cache.pool k).queue = [] := by
      by_contra hne
      exact h.staffed hm k hne none
    rw [Pool.jobs_eq_queue none, hempty] at hv
    exact absurd hv List.not_mem_nil

/-! ## what the waits report -/

variable [RegionStore σ] {store : σ} {settings : Settings} {c : Cache σ}

theorem Settings.batchSize_of_validate (h : settings.validate = .ok ()) :
    settings.batchSize.toNat ≠ 0 := by
  intro hzero
  have hb : settings.batchSize = 0 := UInt64.toNat_inj.mp hzero
  unfold Settings.validate at h
  split at h
  · cases h
  · split at h
    · cases h
    · cases h

omit [RegionStore σ] in
/-- a known column is not loaded just if it is outstanding, once a pool was drained -/
theorem Coverage.outstanding_iff (h : Coverage s) (hm : s.mishap = false) {b : Bool}
    (hd : s.doing = .drained b) (column : Column) :
    s.cache.Outstanding s.abandoned column ↔
      (s.cache.sheetOf? column).isSome = true ∧ s.cache.isLoaded column = false := by
  constructor
  · rintro ⟨k, -, i, hi, hl, -⟩
    rw [Cache.isLoaded, hi]
    exact ⟨rfl, hl⟩
  · rintro ⟨hknown, hl⟩
    obtain ⟨i, hi⟩ := Option.isSome_iff_exists.mp hknown
    rw [Cache.isLoaded, hi, Option.any_some] at hl
    rcases h.covered hm column i hi hl with (hp | hf) | ⟨k, hk⟩
    · rw [hd] at hp
      exact absurd hp List.not_mem_nil
    · exact hf.elim
    · exact ⟨k, h.custody.abandoned_of_awaits hm hd hk, i, hi, hl, hk⟩

omit [RegionStore σ] in
theorem Coverage.allLoaded_iff (h : Coverage s) (hm : s.mishap = false) {b : Bool}
    (hd : s.doing = .drained b) :
    s.cache.AllLoaded ↔ ∀ column, ¬s.cache.Outstanding s.abandoned column := by
  constructor
  · intro hall column ho
    obtain ⟨hknown, hl⟩ := (h.outstanding_iff hm hd column).mp ho
    rw [hall column hknown] at hl
    cases hl
  · intro hnone column hknown
    by_contra hl
    exact hnone column ((h.outstanding_iff hm hd column).mpr ⟨hknown, Bool.eq_false_iff.mpr hl⟩)

/-- **When scheduled work is reported finished**, every known column is loaded unless a pool that an
earlier drain gave up on has a survey of it outstanding. -/
theorem allLoaded_iff_of_drained (hc : Cache.make store settings = .ok c)
    (hs : (Scene.start c).Reach s) (hm : s.mishap = false) :
    (s.doing = .drained true →
      (s.cache.AllLoaded ↔ ∀ column, ¬s.cache.Outstanding s.abandoned column)) ∧
    (s.doing.AtRest → s.cache.store.failing = false → ∀ ms, (s.cache.drain ms).1 = true →
      ((s.cache.drain ms).2.AllLoaded ↔
        ∀ column, ¬(s.cache.drain ms).2.Outstanding s.abandoned column)) := by
  obtain ⟨hv, rfl⟩ := Cache.make_eq_ok hc
  have hbatch := Settings.batchSize_of_validate hv
  refine ⟨fun hd => (coverage_of_reach hbatch hs).allLoaded_iff hm hd, ?_⟩
  intro rest hf ms hfinished
  obtain ⟨lost, hdrain, hlost⟩ := Scene.reach_drain ms rest
  rw [hlost hf, hm, hfinished, if_pos rfl] at hdrain
  exact (coverage_of_reach hbatch (hs.trans hdrain)).allLoaded_iff rfl rfl

omit [RegionStore σ] in
theorem Custody.idle_iff (h : Custody s) (hd : s.doing = .dismissed true) :
    (∀ k, ¬s.cache.Busy k) ↔ ∀ k ∈ s.abandoned, ¬s.cache.Busy k :=
  ⟨fun hidle k _ => hidle k, fun hidle k hk => hidle k (h.abandoned_of_busy hd hk) hk⟩

end

/-- a cache that was told of a column, all by itself -/
def Cache.told : Cache Table := ((Cache.ofSettings {} {}).warmAll [⟨0, 0⟩]).2

theorem Scene.reach_told :
    (Scene.start (Cache.ofSettings ({} : Table) {})).Reach (.start Cache.told) := by
  have hwarm := reach_warmAll (s := Scene.start (Cache.ofSettings ({} : Table) {})) [⟨0, 0⟩] trivial
  have hok : (!((Cache.ofSettings ({} : Table) {}).warmAll [⟨0, 0⟩]).1.isOk) = false := by
    decide +kernel
  unfold Scene.after at hwarm
  rw [Scene.start, hok] at hwarm
  exact hwarm

theorem drain_told :
    (Cache.told.drain 15).1 = true ∧ (Cache.told.drain 15).2.sheetOf? ⟨0, 0⟩ = some 0 ∧
      (Cache.told.drain 15).2.AllLoaded := by
  have hdone : (Cache.told.drain 15).1 = true := by decide +kernel
  refine ⟨hdone, by decide +kernel, ?_⟩
  have hmake : Cache.make ({} : Table) {} = .ok (Cache.ofSettings {} {}) := rfl
  refine ((allLoaded_iff_of_drained hmake Scene.reach_told rfl).2 trivial (by decide +kernel) 15
    hdone).mpr ?_
  rintro column ⟨k, hk, -⟩
  exact absurd hk List.not_mem_nil

/-- a cache with a gate of its store closed -/
def Cache.barred : Cache Table :=
  { Cache.ofSettings ({} : Table) {} with store := Watched.closeGate { store := ({} : Table) } }

/-- such a cache was told of a column, and its worker has come to the gate -/
def Cache.held : Cache Table := ((Cache.barred.warmAll [⟨0, 0⟩]).2.awaitGate 1000).2

/-- a drain gave up on that worker -/
def Scene.gaveUp : Scene Table where
  cache := (Cache.held.drain 15).2
  doing := .drained false
  abandoned := [0]

theorem Scene.reach_gaveUp :
    (Scene.start (Cache.ofSettings ({} : Table) {})).Reach Scene.gaveUp := by
  have hbarred : (Scene.start (Cache.ofSettings ({} : Table) {})).Reach (.start Cache.barred) :=
    reach_step .closeGate
  have htold := reach_warmAll (s := .start Cache.barred) [⟨0, 0⟩] trivial
  have hok : (!(Cache.barred.warmAll [⟨0, 0⟩]).1.isOk) = false := by decide +kernel
  rw [Scene.after, Scene.start, hok] at htold
  obtain ⟨lost, hheld, hlost⟩ := reach_awaitGate (.start (Cache.barred.warmAll [⟨0, 0⟩]).2) 1000
  rw [hlost (by decide +kernel)] at hheld
  obtain ⟨lost', hdrain, hlost'⟩ := reach_drain (s := .start Cache.held) 15 trivial
  have hfalse : (Cache.held.drain 15).1 = false := by decide +kernel
  have hcurrent : Cache.held.current = 0 := by decide +kernel
  rw [hlost' (by decide +kernel), Scene.start, hfalse, if_neg Bool.false_ne_true] at hdrain
  dsimp only at hdrain
  rw [hcurrent] at hdrain
  exact ((hbarred.trans htold).trans hheld).trans hdrain

theorem drain_gaveUp_not_loaded :
    (Scene.start (Cache.ofSettings ({} : Table) {})).Reach Scene.gaveUp ∧
      (Scene.gaveUp.cache.drain 15).1 = true ∧ ¬(Scene.gaveUp.cache.drain 15).2.AllLoaded := by
  refine ⟨Scene.reach_gaveUp, by decide +kernel, fun h => ?_⟩
  have hloaded := h ⟨0, 0⟩ (by decide +kernel)
  exact absurd hloaded (by decide +kernel)

section
variable {σ : Type} {s : Scene σ} [RegionStore σ] {store : σ} {settings : Settings} {c : Cache σ}

/-- **When all surveys are reported stopped**, none is left in a pool with a worker unless an earlier
drain gave up on the pool; and likewise when a world was unloaded. -/
theorem idle_iff_of_dismissed (hc : Cache.make store settings = .ok c)
    (hs : (Scene.start c).Reach s) :
    (s.doing = .dismissed true →
      ((∀ k, ¬s.cache.Busy k) ↔ ∀ k ∈ s.abandoned, ¬s.cache.Busy k)) ∧
    (s.doing.AtRest → ∀ ms, (s.cache.dropAllAndWait ms).1 = true →
      ((∀ k, ¬(s.cache.dropAllAndWait ms).2.Busy k) ↔
        ∀ k ∈ s.abandoned, ¬(s.cache.dropAllAndWait ms).2.Busy k)) ∧
    (s.doing.AtRest → ∀ (r : Registry σ) (name : String) (i ms : Nat),
      r.find? name = some i → r.cache? i = some s.cache → (r.unload name ms).1 = true →
      ∃ c', (r.unload name ms).2.cache? i = some c' ∧
        ((∀ k, ¬c'.Busy k) ↔ ∀ k ∈ s.abandoned, ¬c'.Busy k)) := by
  obtain ⟨-, rfl⟩ := Cache.make_eq_ok hc
  have hwait : s.doing.AtRest → ∀ ms, (s.cache.dropAllAndWait ms).1 = true →
      ((∀ k, ¬(s.cache.dropAllAndWait ms).2.Busy k) ↔
        ∀ k ∈ s.abandoned, ¬(s.cache.dropAllAndWait ms).2.Busy k) := by
    intro rest ms hstopped
    obtain ⟨lost, hdrop, -⟩ := Scene.reach_dropAllAndWait ms rest
    rw [hstopped] at hdrop
    exact (custody_of_reach (hs.trans hdrop)).idle_iff rfl
  refine ⟨fun hd => (custody_of_reach hs).idle_iff hd, hwait, ?_⟩
  intro rest r name i ms hfind hcache hstopped
  obtain ⟨hanswer, hafter⟩ := Registry.cache?_unload hfind hcache ms
  rw [hanswer] at hstopped
  exact ⟨_, hafter, hwait rest ms hstopped⟩

end

/-- a registry with one world, whose cache was told of a column -/
def Registry.told : Registry Table where
  caches := #[Cache.told]
  worlds := Std.ExtTreeMap.insert ∅ "overworld" 0

theorem idle_told :
    ((Cache.told.dropAllAndWait 15).1 = true ∧ ∀ k, ¬(Cache.told.dropAllAndWait 15).2.Busy k) ∧
    (Registry.told.unload "overworld" 15).1 = true ∧
      ∃ c, (Registry.told.unload "overworld" 15).2.cache? 0 = some c ∧ ∀ k, ¬c.Busy k := by
  have hmake : Cache.make ({} : Table) {} = .ok (Cache.ofSettings {} {}) := rfl
  obtain ⟨-, hwait, hunload⟩ := idle_iff_of_dismissed hmake Scene.reach_told
  have hstopped : (Cache.told.dropAllAndWait 15).1 = true := by decide +kernel
  have hunloaded : (Registry.told.unload "overworld" 15).1 = true := by decide +kernel
  refine ⟨⟨hstopped, ?_⟩, hunloaded, ?_⟩
  · exact (hwait trivial 15 hstopped).mpr fun k hk => absurd hk List.not_mem_nil
  · obtain ⟨c, hc, hidle⟩ :=
      hunload trivial Registry.told "overworld" 0 15 (by decide +kernel) rfl hunloaded
    exact ⟨c, hc, hidle.mpr fun k hk => absurd hk List.not_mem_nil⟩

theorem dropAllAndWait_gaveUp_busy :
    (Scene.start (Cache.ofSettings ({} : Table) {})).Reach Scene.gaveUp ∧
      (Scene.gaveUp.cache.dropAllAndWait 15).1 = true ∧
      (Scene.gaveUp.cache.dropAllAndWait 15).2.Busy 0 ∧
      (Scene.gaveUp.cache.dropAllAndWait 15).2.store.holds (.worker 0 1) = true :=
  ⟨Scene.reach_gaveUp, by decide +kernel, ⟨by decide +kernel, by decide +kernel⟩,
    by decide +kernel⟩

end Precinct
