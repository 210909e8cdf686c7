import Mathlib
import Precinct.Proofs.Cache.Crowd
import Precinct.Proofs.Cache.Waits

/-!
# No known column is left alone

While no survey is lost and every worker can be started, a known column of a cache with any number of
clients is loaded or on its way, at every moment.

* `Crowd.Pending`      a client is about to submit a survey of the column;
* `Crowd.Tended`       the invariant: a known column is loaded, or pending, or awaited;
* `Tended.step`        what a client does to its own scene is all that changes (`Covered.step`);
* `loaded_or_awaited`  **so a column that is neither loaded nor pending is awaited**, and when no job is
                       left every column is loaded.

Nothing else looks after a column: it is submitted when it becomes known, and when it is known already
that is all.  A client has pending columns only while it holds the lock of the cache.
-/

namespace Precinct
open Relation (ReflTransGen)

namespace Crowd
variable {σ : Type} {s s' : Crowd σ}

/-- a client is about to submit a column -/
def Pending (s : Crowd σ) (column : Column) : Prop := ∃ n, column ∈ (s.doing n).pending.flatten

/-- what makes every known column be seen to -/
structure Tended (s : Crowd σ) : Prop where
  orderly : s.Orderly
  batchSize : s.cache.settings.batchSize.toNat ≠ 0
  covered : s.mishap = false → ∀ column i, s.cache.sheetOf? column = some i →
    (s.cache.sheet i).isLoaded = false → s.Pending column ∨ ∃ k, s.cache.Awaits k column i

/-- the columns that the other clients are about to submit -/
def pendingBut (s : Crowd σ) (n : Nat) (column : Column) : Prop :=
  ∃ m ≠ n, column ∈ (s.doing m).pending.flatten

theorem pending_iff (s : Crowd σ) (n : Nat) (column : Column) :
    s.Pending column ↔ column ∈ (s.doing n).pending.flatten ∨ s.pendingBut n column := by
  constructor
  · rintro ⟨m, hm⟩
    by_cases he : m = n
    · exact Or.inl (he ▸ hm)
    · exact Or.inr ⟨m, he, hm⟩
  · rintro (hn | ⟨m, -, hm⟩)
    · exact ⟨n, hn⟩
    · exact ⟨m, hm⟩

theorem pendingBut_after (s : Crowd σ) (n : Nat) (t : Scene σ) :
    (s.after n t).pendingBut n = s.pendingBut n := by
  funext column
  refine propext (exists_congr fun m => and_congr_right fun hm => ?_)
  rw [doing_after, if_neg hm]

variable [RegionStore σ]

/-- **Every step keeps every known column seen to.** -/
theorem Tended.step (h : s.Tended) (hs : Step s s') : s'.Tended := by
  refine ⟨h.orderly.step hs, ?_, fun hm column i hi hl => ?_⟩
  · cases hs with
    | @act n t makes =>
      show t.cache.settings.batchSize.toNat ≠ 0
      rw [makes.settings]
      exact h.batchSize
  · cases hs with
    | @act n t makes =>
      have hcovered : Covered (s.pendingBut n) (s.seenBy n) := fun column i hi hl =>
        (h.covered (makes.mishap hm) column i hi hl).imp_left (s.pending_iff n column).mp
      have hafter : Covered (s.pendingBut n) t := hcovered.step (h.orderly.crews n)
        h.orderly.accepting h.orderly.filed h.batchSize makes hm
      rw [(s.after n t).pending_iff n, pendingBut_after, doing_after, if_pos rfl]
      exact hafter column i hi hl

omit [RegionStore σ] in
theorem tended_start (store : σ) {settings : Settings} (h : settings.batchSize.toNat ≠ 0) :
    Tended { cache := Cache.ofSettings store settings } := by
  refine ⟨orderly_start store settings, h, fun _ column i hi => ?_⟩
  rw [Cache.sheetOf?_ofSettings] at hi
  cases hi

end Crowd

open Crowd in
/-- **No known column is left alone.**  At every moment a known column that is not loaded is about to
be submitted, or a survey of the present epoch, queued or running in a pool that was not cancelled,
has still to see to it.  So when nobody is about to submit anything and no pool has a job, every known
column is loaded. -/
theorem loaded_or_awaited {σ : Type} [RegionStore σ] {store : σ} {settings : Settings} {c : Cache σ}
    {run : Nat → Crowd σ} (hc : Cache.make store settings = .ok c) (h : IsRun c run) {t : Nat}
    (hm : (run t).mishap = false) :
    (∀ column i, (run t).cache.sheetOf? column = some i →
      ((run t).cache.sheet i).isLoaded = false →
      (run t).Pending column ∨ ∃ k, (run t).cache.Awaits k column i) ∧
    ((∀ n, ((run t).doing n).pending = []) → (∀ k, ((run t).cache.pool k).jobs = []) →
      (run t).cache.AllLoaded) := by
  obtain ⟨hv, rfl⟩ := Cache.make_eq_ok hc
  have htended : (run t).Tended := h.invariant
    (tended_start store (Settings.batchSize_of_validate hv)) (fun _ _ hs hstep => hs.step hstep) t
  refine ⟨htended.covered hm, fun hnone hidle column hknown => ?_⟩
  obtain ⟨i, hi⟩ := Option.isSome_iff_exists.mp hknown
  rw [Cache.isLoaded, hi, Option.any_some]
  by_contra hl
  rcases htended.covered hm column i hi (Bool.eq_false_iff.mpr hl) with ⟨n, hn⟩ | ⟨k, -, v, hv, -⟩
  · rw [hnone n] at hn
    exact absurd hn List.not_mem_nil
  · rw [hidle k] at hv
    exact absurd hv List.not_mem_nil

open Crowd in
theorem told_awaited_then_loaded : ∃ (run : Nat → Crowd Table) (t u : Nat),
    IsRun (.ofSettings {} {}) run ∧ (∃ k, (run t).cache.Awaits k ⟨0, 0⟩ 0) ∧
      (run u).cache.sheetOf? ⟨0, 0⟩ = some 0 ∧ (run u).cache.AllLoaded := by
  have hmake : Cache.make ({} : Table) {} = .ok (Cache.ofSettings {} {}) := rfl
  obtain ⟨lost, hsettle, hkept⟩ := Scene.goesOn_settle (.start Cache.told)
  rw [hkept (by decide +kernel)] at hsettle
  obtain ⟨run₁, t, hrun₁, -, ht, -⟩ :=
    (IsRun.still (.ofSettings ({} : Table) {})).goOn 0 (steps_of_start Scene.reach_told)
  obtain ⟨run, u, hrun, -, hu, hsame⟩ := hrun₁.goOn t (ht ▸ steps_of_start hsettle.reach)
  have htold : run t = { cache := Cache.told } := by rw [hsame t (le_refl t), ht]
  have hsettled : run u = { cache := Cache.told.settle } := hu
  refine ⟨run, t, u, hrun, ?_, ?_, ?_⟩
  · refine ((loaded_or_awaited hmake hrun (by rw [htold])).1 ⟨0, 0⟩ 0 ?_ ?_).resolve_left ?_
    · rw [htold]
      decide +kernel
    · rw [htold]
      decide +kernel
    · rw [htold]
      rintro ⟨n, hn⟩
      exact absurd hn List.not_mem_nil
  · rw [hsettled]
    decide +kernel
  · refine (loaded_or_awaited hmake hrun (by rw [hsettled])).2 (fun n => by rw [hsettled]; rfl) ?_
    rw [hsettled]
    intro k
    have hsize : Cache.told.settle.pools.size = 1 := by decide +kernel
    have hidle : (Cache.told.settle.pool 0).jobs = [] := by decide +kernel
    rcases Nat.eq_zero_or_pos k with rfl | hk
    · exact hidle
    · show (Cache.told.settle.pool k).jobs = []
      rw [Cache.pool_of_size_le (by omega)]
      rfl

end Precinct
