import Mathlib
import Precinct.Proofs.Cache.Frame

/-!
# The pools of a cache, one by one

* `Cache.Reshaped`   what a step does to the pools: those there are go on by themselves or are dealt
                     with from outside, and those that come to them have no workers yet;
* `Step.reshaped`    every step does this and no more;
* `Crews`            the invariant: every pool is sound and has the settings of the cache, and while
                     every worker could be started no job is queued without one;
* `Crews.step`       it survives every step.

Nothing is said of who has which pool; `Custody` says that.
-/

namespace Precinct

/-! ## fresh pools -/

theorem sound_fresh (settings : PoolSettings) (now : Nat) :
    ({ settings, now } : Pool Survey).Sound :=
  ⟨List.nodup_nil, fun _ h => (List.not_mem_nil h).elim, rfl, rfl, nofun,
    fun _ h => (List.not_mem_nil h).elim⟩

theorem staffed_fresh (settings : PoolSettings) (now : Nat) :
    ({ settings, now } : Pool Survey).Staffed := fun h => absurd rfl h

namespace Cache
variable {σ : Type} {c c' d : Cache σ} {broken : Bool}

/-- no live worker is no worker -/
theorem isLive_eq_false_iff {k : Nat} (h : (c.pool k).Sound) :
    c.isLive k = false ↔ (c.pool k).workers = [] := by
  rw [isLive, h.live, decide_eq_false_iff_not, Nat.not_lt, Nat.le_zero, List.length_eq_zero_iff]

/-! ## what becomes of the pools in one step -/

/-- each pool goes on or is dealt with from outside, new pools are fresh, and the one that takes new
jobs is the same or a new one; whether a worker may fail to start -/
structure Reshaped (c : Cache σ) (broken : Bool) (c' : Cache σ) : Prop where
  size : c.pools.size ≤ c'.pools.size
  change : ∀ k < c.pools.size, (c.pool k).Change broken (c'.pool k)
  fresh : ∀ k < c'.pools.size, c.pools.size ≤ k →
    ∃ now, c'.pool k = { settings := c.settings.pool, now }
  current : c'.current = c.current ∨ c.pools.size ≤ c'.current ∧ c'.current < c'.pools.size

theorem Reshaped.of_change (hsize : c'.pools.size = c.pools.size) (hcurrent : c'.current = c.current)
    (hchange : ∀ k, (c.pool k).Change broken (c'.pool k)) : c.Reshaped broken c' where
  size := hsize.ge
  change k _ := hchange k
  fresh k hk hle := absurd hle (by omega)
  current := Or.inl hcurrent

theorem Reshaped.of_pools (hpools : c'.pools = c.pools) (hcurrent : c'.current = c.current) :
    c.Reshaped broken c' := by
  refine .of_change (congrArg Array.size hpools) hcurrent fun k => ?_
  rw [pool_congr hpools k]
  exact .same

theorem Reshaped.trans_pools (h : c.Reshaped broken d) (hpools : c'.pools = d.pools)
    (hcurrent : c'.current = d.current) : c.Reshaped broken c' := by
  have hpool : ∀ k, c'.pool k = d.pool k := pool_congr hpools
  refine ⟨hpools ▸ h.size, fun k hk => ?_, fun k hk hle => ?_, ?_⟩
  · rw [hpool]
    exact h.change k hk
  · rw [hpool]
    exact h.fresh k (hpools ▸ hk) hle
  · rw [hcurrent, hpools]
    exact h.current

theorem reshaped_setPool {k : Nat} {p : Pool Survey} (h : (c.pool k).Change broken p) :
    c.Reshaped broken (c.setPool k p) := by
  refine .of_change (size_setPool c k p) rfl fun j => ?_
  rw [pool_setPool]
  split
  · rename_i hj
    rw [hj.1]
    exact h
  · exact .same

theorem reshaped_freshPool (c : Cache σ) : c.Reshaped broken c.freshPool := by
  have hsize := size_freshPool c
  refine ⟨by omega, fun k hk => ?_, fun k hk hle => ⟨c.now, ?_⟩, Or.inr ⟨le_refl _, ?_⟩⟩
  · rw [pool_freshPool, if_neg (by omega)]
    exact .same
  · rw [pool_freshPool, if_pos (by omega)]
  · show c.pools.size < c.freshPool.pools.size
    omega

theorem reshaped_turn (h : c.current < c.pools.size) : c.Reshaped broken c.turn.2 := by
  have hsize := size_turn c
  have hcurrent := current_turn c
  refine ⟨by omega, fun k hk => ?_, fun k hk hle => ?_, Or.inr ⟨by omega, by omega⟩⟩
  · obtain ⟨now, hpool⟩ := pool_turn h k
    rw [hpool, if_neg (by omega)]
    split
    · rename_i hk
      rw [hk]
      exact .cancel
    · exact .same
  · obtain ⟨now, hpool⟩ := pool_turn h k
    exact ⟨now, by rw [hpool, if_pos (by omega)]⟩

end Cache

section
variable {σ : Type} [RegionStore σ] {s s' : Scene σ}

theorem Step.settings (hs : Step s s') : s'.cache.settings = s.cache.settings := by
  cases hs with
  | @renew known listed rest =>
    obtain ⟨-, hset, -⟩ := s.cache.turn.2.insertAllMissing_frame known
    exact hset
  | warm columns rest =>
    obtain ⟨-, hset, -⟩ := s.cache.insertAllMissing_frame columns
    exact hset
  | @scheduled renewal doing => cases renewal <;> rfl
  | ask p rest => exact (s.cache.resolved p.column).frame.2.1
  | answer doing => exact (s.cache.answer_frame _ _).1
  | @dismissed pools stopped doing => cases stopped <;> rfl
  | work makes => exact (Cache.worked_of_step? makes).frame.1
  | _ => rfl

theorem Step.mishap (hs : Step s s') (h : s'.mishap = false) : s.mishap = false := by
  cases hs with
  | submit doing taken => exact (Bool.or_eq_false_iff.mp h).2
  | breakOff doing refused => cases h
  | work makes => exact (Bool.or_eq_false_iff.mp h).1
  | _ => exact h

/-- **What a step does to the pools.** -/
theorem Step.reshaped (hs : Step s s') (hc : s.cache.current < s.cache.pools.size) :
    s.cache.Reshaped s'.mishap s'.cache := by
  cases hs with
  | @renew known listed rest =>
    obtain ⟨-, -, -, hp, hcur, -⟩ := s.cache.turn.2.insertAllMissing_frame known
    exact (Cache.reshaped_turn hc).trans_pools hp hcur
  | warm columns rest =>
    obtain ⟨-, -, -, hp, hcur, -⟩ := s.cache.insertAllMissing_frame columns
    exact .of_pools hp hcur
  | dropAll rest => exact Cache.reshaped_turn hc
  | @submit batch batches renewal denied p doing taken =>
    have hsub := Pool.submitted (s.cache.pool s.cache.current) ⟨s.cache.epoch, batch, .checking⟩ denied
    rw [taken] at hsub
    cases denied with
    | false => exact Cache.reshaped_setPool (.submitted hsub)
    | true => exact Cache.reshaped_setPool (.unstarted hsub rfl)
  | @breakOff batch batches renewal p fault doing refused =>
    have hsub := Pool.submitted (s.cache.pool s.cache.current) ⟨s.cache.epoch, batch, .checking⟩ false
    rw [refused] at hsub
    exact Cache.reshaped_setPool (.unstarted hsub rfl)
  | @scheduled renewal doing => cases renewal <;> exact .of_pools rfl rfl
  | ask p rest =>
    obtain ⟨-, -, -, -, -, hp, hcur, -⟩ := (s.cache.resolved p.column).frame
    exact .of_pools hp hcur
  | @answer p found doing =>
    obtain ⟨-, -, -, -, hp, hcur, -⟩ := s.cache.answer_frame p found
    exact .of_pools hp hcur
  | swap rest => exact Cache.reshaped_freshPool _
  | @close k doing => exact Cache.reshaped_setPool .close
  | dismiss rest => exact (Cache.reshaped_turn hc).trans_pools rfl rfl
  | @dismissed pools stopped doing => cases stopped <;> exact .of_pools rfl rfl
  | work makes =>
    have hwork := Cache.worked_of_step? makes
    obtain ⟨-, -, -, hcur, -, -, hsize⟩ := hwork.frame
    refine .of_change hsize hcur fun k => ?_
    rcases hwork.pool k with he | ha
    · exact he.symm ▸ .same
    · exact .advance ha
  | elapse ms =>
    refine .of_change (s.cache.size_elapse ms) rfl fun k => ?_
    rcases s.cache.pool_elapse ms k with he | he
    · exact he.symm ▸ .same
    · exact he.symm ▸ .advance (.elapse ms)
  | _ => exact .of_pools rfl rfl

end

/-! ## the invariant -/

/-- what holds of the pools of a scene -/
structure Crews {σ : Type} (s : Scene σ) : Prop where
  sound : ∀ k, (s.cache.pool k).Sound
  settings : ∀ k < s.cache.pools.size, (s.cache.pool k).settings = s.cache.settings.pool
  staffed : s.mishap = false → ∀ k, (s.cache.pool k).Staffed
  current : s.cache.current < s.cache.pools.size

section
variable {σ : Type} {s s' : Scene σ}

/-- a pool is one of those there were before, or has no workers yet -/
theorem Cache.Reshaped.cases {c c' : Cache σ} {broken : Bool} (h : c.Reshaped broken c') (k : Nat) :
    (k < c.pools.size ∧ (c.pool k).Change broken (c'.pool k)) ∨
      ∃ settings now, c'.pool k = { settings, now } := by
  rcases Nat.lt_or_ge k c.pools.size with hk | hk
  · exact Or.inl ⟨hk, h.change k hk⟩
  rcases Nat.lt_or_ge k c'.pools.size with hk' | hk'
  · obtain ⟨now, he⟩ := h.fresh k hk' hk
    exact Or.inr ⟨_, now, he⟩
  · exact Or.inr ⟨_, _, Cache.pool_of_size_le hk'⟩

theorem Crews.of_reshaped (h : Crews s) (hshape : s.cache.Reshaped s'.mishap s'.cache)
    (hsettings : s'.cache.settings = s.cache.settings)
    (hmishap : s'.mishap = false → s.mishap = false) : Crews s' := by
  refine ⟨fun k => ?_, fun k hk => ?_, fun hm k => ?_, ?_⟩
  · rcases hshape.cases k with ⟨-, hchange⟩ | ⟨settings, now, he⟩
    · exact (h.sound k).change hchange
    · rw [he]
      exact sound_fresh settings now
  · rw [hsettings]
    rcases Nat.lt_or_ge k s.cache.pools.size with hk' | hk'
    · rw [(hshape.change k hk').settings (h.sound k), h.settings k hk']
    · obtain ⟨now, he⟩ := hshape.fresh k hk hk'
      rw [he]
  · rcases hshape.cases k with ⟨hk, hchange⟩ | ⟨settings, now, he⟩
    · rw [hm] at hchange
      refine hchange.staffed (h.sound k) ?_ (h.staffed (hmishap hm) k)
      rw [h.settings k hk]
      exact le_max_right _ _
    · rw [he]
      exact staffed_fresh settings now
  · rcases hshape.current with he | ⟨-, hlt⟩
    · rw [he]
      exact h.current.trans_le hshape.size
    · exact hlt

/-- **Every step keeps the pools as they should be.** -/
theorem Crews.step [RegionStore σ] (h : Crews s) (hs : Step s s') : Crews s' :=
  h.of_reshaped (hs.reshaped h.current) hs.settings hs.mishap

theorem crews_start (store : σ) (settings : Settings) :
    Crews (Scene.start (Cache.ofSettings store settings)) := by
  refine ⟨fun k => ?_, fun k hk => ?_, fun _ k => ?_, Nat.one_pos⟩
  · show ((Cache.ofSettings store settings).pool k).Sound
    rcases Cache.pool_ofSettings store settings k with he | he
    · exact he.symm ▸ sound_fresh _ _
    · exact he.symm ▸ sound_fresh _ _
  · rw [show k = 0 from Nat.lt_one_iff.mp hk]
    rfl
  · show ((Cache.ofSettings store settings).pool k).Staffed
    rcases Cache.pool_ofSettings store settings k with he | he
    · exact he.symm ▸ staffed_fresh _ _
    · exact he.symm ▸ staffed_fresh _ _

end
end Precinct
