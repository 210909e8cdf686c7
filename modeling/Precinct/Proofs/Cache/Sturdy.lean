import Mathlib
import Precinct.Proofs.Cache.Waits
import Precinct.Proofs.Probe.Findings

/-!
# Which accepted settings a cache can work with

* `Cache.renew_ok`, `Cache.warmAll_ok`, `Cache.purge_ok`  if the thread name does not hold the character
                       zero, no renewal, hint or removal by a visitor breaks off;
* `Sturdy`             nothing that is asked of a cache breaks off, in one go or with the workers
                       coming between, unless it is a cross-check too large to be counted; so nothing
                       goes wrong as long as no worker is denied (`mishap_of_steps`);
* **`sturdy_iff`**     a cache of accepted settings stays so if and only if its thread name does not
                       hold the character zero.

`Settings.validate` refuses a thread name that is blank, and zero is no blank.  A renewal is the
easier half: it goes to a fresh pool, so only the settings matter.  A hint goes to whichever pool
takes new jobs, and that this pool has the settings of the cache is an invariant (`Crews`).
-/

namespace Precinct

/-! ## schedules without a fault -/

namespace Cache
variable {σ : Type} {c : Cache σ}

theorem submitAll_ok (batches : List (List Column))
    (h : ¬HoldsZero (c.pool c.current).settings.threadName) : (c.submitAll batches).1 = .ok () := by
  induction batches generalizing c with
  | nil => rfl
  | cons batch batches ih =>
    have hok := (Pool.submit_ok_iff { epoch := c.epoch, columns := batch } false).mpr fun hdue =>
      h hdue.2
    have hframe := (Pool.submitted (c.pool c.current)
      { epoch := c.epoch, columns := batch } false).frame.1
    rw [submitAll]
    cases hp : (c.pool c.current).submit { epoch := c.epoch, columns := batch } with
    | mk outcome p =>
      rw [hp] at hok hframe
      cases hok
      refine ih ?_
      show ¬HoldsZero ((c.setPool c.current p).pool c.current).settings.threadName
      rw [pool_setPool]
      split
      · rw [hframe]
        exact h
      · exact h

theorem submitAll_broken (batch : List Column) (batches : List (List Column))
    (due : (c.pool c.current).Due) (hname : HoldsZero (c.pool c.current).settings.threadName) :
    (c.submitAll (batch :: batches)).1 = .error .workerName := by
  have hbroken := Pool.submit_broken { epoch := c.epoch, columns := batch } due hname
  rw [submitAll]
  cases hp : (c.pool c.current).submit { epoch := c.epoch, columns := batch } with
  | mk outcome p =>
    rw [hp] at hbroken
    cases hbroken
    rfl

theorem warmAll_ok (columns : List Column)
    (h : ¬HoldsZero (c.pool c.current).settings.threadName) : (c.warmAll columns).1 = .ok () := by
  obtain ⟨-, -, -, hpools, hcurrent, -⟩ := c.insertAllMissing_frame columns
  unfold warmAll
  dsimp only
  split
  · rfl
  · refine submitAll_ok _ ?_
    rw [pool_congr hpools, hcurrent]
    exact h

/-- a renewal goes to a fresh pool, so nothing is asked of the one before -/
theorem renew_ok (h : ¬HoldsZero c.settings.threadName) : c.renew.1 = .ok () := by
  obtain ⟨-, -, -, hpools, hcurrent, -⟩ := c.turn.2.insertAllMissing_frame c.columns.keys
  have hfresh : ((c.restart c.columns.keys).pool (c.restart c.columns.keys).current).settings =
      c.settings.pool := by
    show ((c.turn.2.insertAllMissing c.columns.keys).2.pool _).settings = _
    rw [pool_congr hpools, show (c.restart c.columns.keys).current = _ from hcurrent, current_turn]
    show ((c.setPool c.current _).freshPool.pool _).settings = _
    rw [pool_freshPool, if_pos (size_setPool c _ _).symm]
    rfl
  have hok : ((c.restart c.columns.keys).schedule c.columns.keys).1 = .ok () := by
    refine submitAll_ok _ ?_
    rw [hfresh]
    exact h
  cases hs : (c.restart c.columns.keys).schedule c.columns.keys with
  | mk outcome d =>
    rw [hs] at hok
    cases hok
    rw [renew_of_ok hs]

/-- with the character zero in the thread name, the first column made known is one too many -/
theorem warm_broken {settings : Settings} (hname : HoldsZero settings.threadName)
    (hcuts : settings.batchSize.toNat ≠ 0) (store : σ) (column : Column) :
    ((ofSettings store settings).warm column).1 = .error .workerName := by
  obtain ⟨batch, rest, hcut⟩ : ∃ batch rest,
      batches settings.batchSize.toNat [column] = batch :: rest := by
    rw [batches, dif_neg (by simpa using hcuts)]
    exact ⟨_, _, rfl⟩
  show (submitAll _ (batches settings.batchSize.toNat [column])).1 = _
  rw [hcut]
  exact submitAll_broken batch rest
    ⟨rfl, rfl, Nat.lt_of_lt_of_le Nat.one_pos (le_max_right _ _)⟩ hname

variable [RegionStore σ]

theorem exists_remove_ok (h : ¬HoldsZero c.settings.threadName) (id : String) (removal : Removal) :
    ∃ gone, (c.remove id removal).1 = .ok gone := by
  have hok := renew_ok (c := c.modifyStore fun _ => (RegionStore.remove c.store.store id removal).2) h
  unfold remove
  dsimp only
  cases hr : (c.modifyStore fun _ => (RegionStore.remove c.store.store id removal).2).renew with
  | mk outcome d =>
    rw [hr] at hok
    cases hok
    exact ⟨_, rfl⟩

end Cache

section
variable {σ : Type} [RegionStore σ] {s : Scene σ}

theorem Scene.Reach.settings {s' : Scene σ} (h : s.Reach s') :
    s'.cache.settings = s.cache.settings :=
  h.invariant (P := fun t => t.cache.settings = s.cache.settings)
    (fun _ _ ht hstep => hstep.settings.trans ht) rfl

namespace Cache
variable {c : Cache σ}

theorem settings_remove (c : Cache σ) (id : String) (removal : Removal) :
    (c.remove id removal).2.settings = c.settings :=
  (Scene.reach_remove (s := Scene.start c) id removal trivial).settings

/-- no removal of a visitor breaks off -/
theorem purge_ok (removal : Removal) (regions : List Region) {p : Purge σ}
    (h : ¬HoldsZero p.cache.settings.threadName) (hp : p.fault = none) :
    (visitEach (Purge.visit removal) regions p).fault = none := by
  refine (visitEach_induct (P := fun q : Purge σ =>
    ¬HoldsZero q.cache.settings.threadName ∧ q.fault = none) ?_ regions ⟨h, hp⟩).2
  rintro r q ⟨hq, -⟩
  obtain ⟨gone, hok⟩ := exists_remove_ok hq r.id removal
  have hsettings := q.cache.settings_remove r.id removal
  unfold Purge.visit
  cases hr : q.cache.remove r.id removal with
  | mk outcome d =>
    rw [hr] at hok hsettings
    cases hok
    exact ⟨hsettings ▸ hq, rfl⟩

theorem purgeContaining_ok (h : ¬HoldsZero c.settings.threadName) (p : Block) (removal : Removal) :
    (c.purgeContaining p removal).fault = none := by
  have hsettings := (c.resolved p.column).frame.2.1
  unfold purgeContaining
  cases hr : c.resolve p.column with
  | mk found d =>
    rw [hr] at hsettings
    have hd : ¬HoldsZero d.settings.threadName := by
      rw [show d.settings = _ from hsettings]
      exact h
    cases found with
    | some regions =>
      dsimp only
      rw [visitWhere_eq]
      exact purge_ok removal _ hd rfl
    | none => exact purge_ok removal _ hd rfl

end Cache

/-! ## sturdy scenes -/

/-- nothing that is asked of a cache breaks off, in one go or with the workers coming between -/
structure Sturdy (s : Scene σ) : Prop where
  /-- no operation breaks off, as long as the store is not about to fail and no cross-check is too
  large -/
  performs : s.doing.AtRest → s.cache.store.failing = false →
    ∀ (op : CacheOp) (shelf : Shelf) (fault : Fault),
      (∀ points, op = .crossCheck points → ¬s.cache.Exceeds points) →
        (op.perform s.cache shelf).1 ≠ .ofStore (.broken fault)
  /-- whatever is due to be submitted is taken up, also if the system denies a worker -/
  takes : ∀ {batch : List Column} {batches : List (List Column)} {renewal : Bool},
    s.doing = .scheduling (batch :: batches) renewal → ∀ denied,
      ((s.cache.pool s.cache.current).submit
        { epoch := s.cache.epoch, columns := batch } denied).1 = .ok ()
  /-- columns are never cut into pieces of length zero -/
  cuts : s.cache.settings.batchSize.toNat ≠ 0

/-- a query about a region breaks off only in a store about to fail -/
theorem Cache.exists_intersecting_ok {c : Cache σ} (hf : c.store.failing = false) (r : Region) :
    ∃ regions, (c.intersecting r).1 = .ok regions := by
  refine ⟨(RegionStore.intersecting c.store.store r).1, ?_⟩
  show (c.store.intersecting r).1 = _
  rw [Watched.intersecting, Watched.collect, if_neg]
  · rfl
  · rw [show (c.store.enter .owner).failing = c.store.failing from rfl, hf]
    exact Bool.false_ne_true

/-- a store by itself breaks nothing off -/
theorem perform_not_broken (op : StoreOp) (store : σ) (shelf : Shelf) (fault : Fault) :
    (op.perform store shelf).1 ≠ .broken fault := by
  cases op <;> exact nofun

theorem performBehind_not_broken {c : Cache σ} (hf : c.store.failing = false) (op : StoreOp)
    (shelf : Shelf) (fault : Fault) : (op.performBehind c shelf).1 ≠ .broken fault := by
  have hplain := perform_not_broken op c.store.store shelf fault
  cases op with
  | visitIntersecting r limit =>
    obtain ⟨regions, hok⟩ := Cache.exists_intersecting_ok hf r
    rw [StoreOp.performBehind]
    cases hr : c.intersecting r with
    | mk outcome d =>
      rw [hr] at hok
      cases hok
      rintro ⟨⟩
  | _ => exact hplain

theorem performOn_not_broken {c : Cache σ} (hc : ¬HoldsZero c.settings.threadName)
    (hpool : ¬HoldsZero (c.pool c.current).settings.threadName) (hf : c.store.failing = false)
    (op : StoreOp) (shelf : Shelf) (fault : Fault) : (op.performOn c shelf).1 ≠ .broken fault := by
  have hdone : ∀ {outcome : Except Fault Unit}, outcome = .ok () →
      StoreOp.replyOf outcome ≠ .broken fault := by
    rintro _ rfl ⟨⟩
  cases op with
  | add r => exact hdone (Cache.renew_ok (c := c.modifyStore (RegionStore.add · r)) hc)
  | addAll regions =>
    exact hdone (Cache.renew_ok (c := c.modifyStore (RegionStore.addAll · regions)) hc)
  | remove id removal =>
    obtain ⟨gone, hok⟩ := Cache.exists_remove_ok hc id removal
    rw [StoreOp.performOn]
    cases hr : c.remove id removal with
    | mk outcome d =>
      rw [hr] at hok
      cases hok
      rintro ⟨⟩
  | visitIntersecting r limit =>
    obtain ⟨regions, hok⟩ := Cache.exists_intersecting_ok hf r
    rw [StoreOp.performOn]
    cases hr : c.intersecting r with
    | mk outcome d =>
      rw [hr] at hok
      cases hok
      rintro ⟨⟩
  | purgeContaining p removal =>
    have hnone := Cache.purgeContaining_ok hc p removal
    rw [StoreOp.performOn, hnone]
    rintro ⟨⟩
  | purgeAll removal =>
    have hnone : (c.purgeAll removal).fault = none := Cache.purge_ok removal _ hc rfl
    rw [StoreOp.performOn, hnone]
    rintro ⟨⟩
  | hint h =>
    refine hdone ?_
    cases h with
    | warm column =>
      show (c.warm column).1 = .ok ()
      rw [Scene.warm_eq_warmAll]
      exact Cache.warmAll_ok _ hpool
    | warmAll columns => exact Cache.warmAll_ok _ hpool
    | drop column => rfl
    | dropAll => rfl
  | _ => rintro ⟨⟩

/-- **Without the character zero** in the thread name a scene whose pools are in order is sturdy. -/
theorem Crews.sturdy (h : Crews s) (hname : ¬HoldsZero s.cache.settings.threadName)
    (hcuts : s.cache.settings.batchSize.toNat ≠ 0) : Sturdy s := by
  have hpool : ¬HoldsZero (s.cache.pool s.cache.current).settings.threadName := by
    rw [h.settings _ h.current]
    exact hname
  refine ⟨fun _ hf op shelf fault hfits hbroken => ?_, fun _ denied => ?_, hcuts⟩
  · cases op with
    | ofStore op =>
      exact performOn_not_broken hname hpool hf op shelf fault (CacheReply.ofStore.inj hbroken)
    | behind op =>
      exact performBehind_not_broken hf op shelf fault (CacheReply.ofStore.inj hbroken)
    | renew =>
      have hreply : StoreOp.replyOf s.cache.renew.1 = .broken fault :=
        CacheReply.ofStore.inj hbroken
      rw [Cache.renew_ok hname] at hreply
      cases hreply
    | crossCheck points =>
      have hreply : CacheReply.ofCheck (s.cache.crossCheck points).1 = .ofStore (.broken fault) :=
        hbroken
      rw [Cache.crossCheck_ok (hfits points rfl)] at hreply
      cases hreply
    | _ => cases hbroken
  · exact (Pool.submit_ok_iff _ denied).mpr fun hdue => hpool hdue.2

/-- **Nothing goes wrong in a sturdy scene** unless the store was told to fail or a worker is denied. -/
theorem Sturdy.mishap (h : Sturdy s) (hf : s.cache.store.failing = false) {s' : Scene σ}
    (hs : Step s s') (hd : s'.denied = false) : s'.mishap = s.mishap := by
  cases hs with
  | @submit batch batches renewal denied p doing taken =>
    show (denied || s.mishap) = s.mishap
    rw [(Bool.or_eq_false_iff.mp hd).1, Bool.false_or]
  | breakOff doing refused =>
    have htaken := h.takes doing false
    rw [refused] at htaken
    cases htaken
  | work makes =>
    show (s.mishap || _) = s.mishap
    rw [((Cache.worked_of_step? makes).not_lost hf).1, Bool.or_false]
  | _ => rfl

/-! ## accepted settings -/

theorem sturdy_of_reach {store : σ} {settings : Settings} (accepted : settings.validate = .ok ())
    (hname : ¬HoldsZero settings.threadName)
    (hs : Scene.Reach (.start (Cache.ofSettings store settings)) s) : Sturdy s := by
  refine (custody_of_reach hs).toCrews.sturdy ?_ ?_
  · rw [hs.settings]
    exact hname
  · rw [hs.settings]
    exact Settings.batchSize_of_validate accepted

/-- all workers start and no survey is lost as long as the store is not told to fail and the system denies
no worker -/
theorem mishap_of_steps {store : σ} {settings : Settings} (accepted : settings.validate = .ok ())
    (hname : ¬HoldsZero settings.threadName)
    (hs : Relation.ReflTransGen
      (fun t u => Step t u ∧ t.cache.store.failing = false ∧ u.denied = false)
      (.start (Cache.ofSettings store settings)) s) : s.mishap = false := by
  induction hs with
  | refl => rfl
  | @tail t u hbefore hlast ih =>
    have hreach : Scene.Reach (.start (Cache.ofSettings store settings)) t :=
      Relation.ReflTransGen.mono (fun _ _ => And.left) _ _ hbefore
    exact ((sturdy_of_reach accepted hname hreach).mishap hlast.2.1 hlast.1 hlast.2.2).trans ih

/-- **A cache of accepted settings is sturdy in every scene** if and only if the thread name does not
hold the character zero. -/
theorem sturdy_iff {settings : Settings} (accepted : settings.validate = .ok ()) (store : σ) :
    (∃ c, Cache.make store settings = .ok c ∧
      ∀ s, (Scene.start c).Reach s → Sturdy s) ↔ ¬HoldsZero settings.threadName := by
  have hcuts := Settings.batchSize_of_validate accepted
  have hmake : Cache.make store settings = .ok (Cache.ofSettings store settings) := by
    rw [Cache.make, accepted]
    rfl
  constructor
  · rintro ⟨c, hc, hsturdy⟩ hname
    rw [hmake] at hc
    cases hc
    refine (hsturdy _ .refl).performs trivial rfl (.ofStore (.hint (.warm ⟨0, 0⟩))) ∅ .workerName
      (fun points hcheck => ?_) ?_
    · cases hcheck
    show CacheReply.ofStore (StoreOp.replyOf ((Cache.ofSettings store settings).warm ⟨0, 0⟩).1) = _
    rw [Cache.warm_broken hname hcuts]
    rfl
  · intro hname
    exact ⟨_, hmake, fun s hs => sturdy_of_reach accepted hname hs⟩

theorem sturdy_of_defaults :
    ({} : Settings).validate = .ok () ∧ ∃ c, Cache.make ({} : Table) {} = .ok c ∧
      ∀ s, (Scene.start c).Reach s → Sturdy s :=
  ⟨by decide +kernel, (sturdy_iff (by decide +kernel) _).mpr (by decide)⟩

/-- accepted settings with a thread name that no worker can have -/
def Settings.zeroNamed : Settings := { threadName := "a\x00b" }

/-- the first column made known breaks off.  It stays known, and its job stays queued in a pool
without workers -/
theorem zeroNamed_broken :
    Settings.zeroNamed.validate = .ok () ∧
      Cache.make ({} : Table) .zeroNamed = .ok (Cache.ofSettings {} .zeroNamed) ∧
      (CacheOp.perform (.ofStore (.hint (.warm ⟨0, 0⟩)))
        (Cache.ofSettings ({} : Table) .zeroNamed) ∅).1 = .ofStore (.broken .workerName) ∧
      ((Cache.ofSettings ({} : Table) .zeroNamed).warm ⟨0, 0⟩).2.knownColumns = 1 ∧
      ((((Cache.ofSettings ({} : Table) .zeroNamed).warm ⟨0, 0⟩).2.pool 0).queue.length,
        (((Cache.ofSettings ({} : Table) .zeroNamed).warm ⟨0, 0⟩).2.pool 0).live) = (1, 0) := by
  have haccepted : Settings.zeroNamed.validate = .ok () := by decide +kernel
  have hbroken := Cache.warm_broken (show HoldsZero Settings.zeroNamed.threadName by decide)
    (Settings.batchSize_of_validate haccepted) ({} : Table) ⟨0, 0⟩
  refine ⟨haccepted, ?_, ?_, by decide +kernel, by decide +kernel⟩
  · rw [Cache.make, haccepted]
    rfl
  · show CacheReply.ofStore (StoreOp.replyOf
      ((Cache.ofSettings ({} : Table) .zeroNamed).warm ⟨0, 0⟩).1) = _
    rw [hbroken]
    rfl

end
end Precinct
