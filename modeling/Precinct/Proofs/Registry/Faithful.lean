import Mathlib
import Precinct.Proofs.Cache.Tended
import Precinct.Proofs.Registry.Operations

/-!
# A registry of worlds is faithful

* `Registry.hosts_after`  every cache that was made is tended, whatever was done to it;
* `Registry.Faithful`  what a registry promises after a sequence of operations: the worlds that it
                       lists, what a load does to the cache that it replaces, and what an operation does
                       to the caches of other worlds;
* `faithful_after`     **so it is after every sequence of operations**.
-/

namespace Precinct
namespace Registry
variable {σ : Type} [RegionStore σ] {ops : List (RegistryOp σ)} {op : RegistryOp σ} {name : String}
  {store : σ} {settings : Settings}

theorem apply_load_of_ok (r : Registry σ) (name : String) (store : σ)
    (h : settings.validate = .ok ()) :
    r.load name store settings = .ok ((RegistryOp.load name store settings).apply r) := by
  obtain ⟨r', hr'⟩ := load_of_ok r name store h
  rw [RegistryOp.apply, hr']

theorem apply_load_of_refused (r : Registry σ) (h : settings.validate ≠ .ok ()) :
    (RegistryOp.load name store settings).apply r = r := by
  cases hv : settings.validate with
  | ok u => exact absurd hv h
  | error e => rw [RegistryOp.apply, load_of_error hv]

/-- the stores that were loaded were sound at the time -/
def SoundStores [ExactStore σ] (ops : List (RegistryOp σ)) : Prop :=
  ∀ name store settings, .load name store settings ∈ ops → ExactStore.Sound store

/-- a cache is new, or it was there before -/
theorem cache?_apply_cases (r : Registry σ) (hr : ∀ name, r.find? name ≠ some r.caches.size)
    (op : RegistryOp σ) {j : Nat} {c' : Cache σ} (hc : (op.apply r).cache? j = some c') :
    (∃ c, r.cache? j = some c ∧ RegistryOp.Fate r op j c c') ∨
      ∃ name store settings, op = .load name store settings ∧ c' = .ofSettings store settings := by
  cases hj : r.cache? j with
  | some c =>
    obtain ⟨d, hd, hfate⟩ := op.fate hj
    obtain rfl : d = c' := Option.some.inj (hd.symm.trans hc)
    exact Or.inl ⟨c, rfl, hfate⟩
  | none =>
    -- caches are made one at a time, at the end
    have hle : r.caches.size ≤ j := Array.getElem?_eq_none_iff.mp hj
    have hlt := lt_size_of_cache? hc
    rw [RegistryOp.size_apply] at hlt
    cases op with
    | load name store settings =>
      by_cases hv : settings.validate = .ok ()
      · rw [RegistryOp.loaded?_load hv, Option.toList_some, List.length_singleton] at hlt
        obtain rfl : j = r.caches.size := by omega
        have hnew := cache?_load_new (apply_load_of_ok r name store hv) (hr name)
        exact Or.inr ⟨name, store, settings, rfl, Option.some.inj (hc.symm.trans hnew)⟩
      · rw [apply_load_of_refused r hv, hj] at hc
        cases hc
    | _ => exact absurd hlt (not_lt.mpr hle)

theorem hosts_after [ExactStore σ] [UnhintedStore σ] (h : SoundStores ops) {j : Nat} {c : Cache σ}
    (hc : (after ops).cache? j = some c) : c.Hosts Tended := by
  induction ops using List.reverseRecOn generalizing c with
  | nil => cases hc
  | append_singleton ops op ih =>
    rw [after_concat] at hc
    have hsize : ∀ name, (after ops).find? name ≠ some (after ops).caches.size :=
      fun name hf => lt_irrefl _ (lt_of_find?_after hf)
    rcases cache?_apply_cases _ hsize op hc with ⟨d, hd, hfate⟩ | ⟨name, store, settings, rfl, rfl⟩
    · exact hfate.undergone.tended
        (ih (fun name store settings hmem => h name store settings (List.mem_append_left _ hmem)) hd)
    · exact Cache.hosts_ofSettings (h name store settings (by simp)) settings

/-! ## what a registry promises -/

/-- what a registry promises after a sequence of operations -/
structure Faithful [ExactStore σ] (ops : List (RegistryOp σ)) : Prop where
  nodup : (after ops).names.Nodup
  /-- a world is listed if nothing ended it after its last load -/
  listed : ∀ name, name ∈ (after ops).names ↔ ∃ i, Stands ops name i
  /-- and it has the cache that was made then -/
  found : ∀ name i, (after ops).find? name = some i ↔ Stands ops name i
  apart : ∀ name other i, (after ops).find? name = some i → (after ops).find? other = some i →
    name = other
  refused : ∀ name store settings e,
    (after ops).load name store settings = .error e ↔ settings.validate = .error e
  /-- a load that is refused might as well not have been tried -/
  unchanged : ∀ name store settings, settings.validate ≠ .ok () → ∀ later,
    after (ops ++ .load name store settings :: later) = after (ops ++ later)
  made : ∀ name store settings, settings.validate = .ok () →
    (after (ops ++ [.load name store settings])).cache? (after ops).caches.size =
      some (.ofSettings store settings)
  /-- a cache that is replaced knows no column -/
  replaced : ∀ name store settings i, settings.validate = .ok () →
    (after ops).find? name = some i →
    ∃ c, (after ops).cache? i = some c ∧
      (after (ops ++ [.load name store settings])).cache? i = some c.dropAll ∧
      c.dropAll.knownColumns = 0
  /-- and whoever kept it is answered exactly ever after, unless it has come to know columns and the
  store was changed behind its back -/
  answers : SoundStores ops → ∀ name store settings i, settings.validate = .ok () →
    (after ops).find? name = some i → ∀ later,
    ∃ c, (after (ops ++ .load name store settings :: later)).cache? i = some c ∧
      ((∀ o, .perform i (.behind o) ∉ later) ∨ c.knownColumns = 0 →
        ∀ p, c.Answers p (c.regionsAt p).1)
  unknown : ∀ name ms, name ∉ (after ops).names → (after ops).unload name ms = (false, after ops)
  /-- a cache that an operation is not about is left to its workers, if somebody waits, or else stays
  as it is -/
  untouched : ∀ op j c, (after ops).cache? j = some c → ¬op.Addresses (after ops) j →
    ∃ c', (after (ops ++ [op])).cache? j = some c' ∧ c.Idles c' ∧ c.LeftAlone c' ∧
      RegionStore.values c'.store.store = RegionStore.values c.store.store ∧
      (¬op.Waits (after ops) → c' = c)

theorem exists_replaced (store : σ) {i : Nat} (hv : settings.validate = .ok ())
    (hf : (after ops).find? name = some i) : ∃ c, (after ops).cache? i = some c ∧
      (after (ops ++ [.load name store settings])).cache? i = some c.dropAll := by
  obtain ⟨c, hc⟩ : ∃ c, (after ops).cache? i = some c :=
    ⟨_, Array.getElem?_eq_getElem (lt_of_find?_after hf)⟩
  refine ⟨c, hc, ?_⟩
  rw [after_concat, cache?_load (apply_load_of_ok (after ops) name store hv) hc, if_pos hf]

/-- **A registry of worlds is faithful** after every sequence of operations. -/
theorem faithful_after [ExactStore σ] [UnhintedStore σ] (ops : List (RegistryOp σ)) :
    Faithful ops where
  nodup := nodup_names _
  listed name := by
    rw [mem_names, Option.isSome_iff_exists]
    exact exists_congr (find?_after ops name)
  found := find?_after ops
  apart _ _ _ := find?_after_inj
  refused _ _ _ _ := load_eq_error_iff
  unchanged name store settings hv later := by
    rw [after_append, after_append, List.foldl_cons, apply_load_of_refused _ hv]
  made name store settings hv := by
    rw [after_concat]
    exact cache?_load_new (apply_load_of_ok _ name store hv) fun hf =>
      lt_irrefl _ (lt_of_find?_after hf)
  replaced name store settings i hv hf := by
    obtain ⟨c, hc, hdropped⟩ := exists_replaced store hv hf
    exact ⟨c, hc, hdropped, c.knownColumns_dropAll⟩
  answers hsound name store settings i hv hf later := by
    obtain ⟨c, hc, hdropped⟩ := exists_replaced store hv hf
    obtain ⟨c', hc', hundergone⟩ := undergone _ later hdropped
    -- the load begins an epoch, so what went behind the back of the cache before is made good
    have hexact : c.dropAll.Hosts Exact := (hosts_after hsound hc).exact_dropAll
    refine ⟨c', ?_, ?_⟩
    · rw [List.append_cons, after_append]
      exact hc'
    · rintro (hthrough | hnone) p
      · exact ((hundergone.mono fun ⟨o, ho⟩ => hthrough o ho).exact hexact).answers p
      · exact (hundergone.tended hexact.tended).answers_of_unknown hnone p
  unknown name ms hn := by
    rw [mem_names, Bool.not_eq_true, Option.isSome_eq_false_iff, Option.isNone_iff_eq_none] at hn
    exact unload_of_unknown hn ms
  untouched op j c hc hother := by
    obtain ⟨c', hc', hfate⟩ := op.fate hc
    have hidles : c.Idles c' ∧ (¬op.Waits (after ops) → c' = c) := by
      cases hfate with
      | kept => exact ⟨.refl, fun _ => rfl⟩
      | idled waits idles => exact ⟨idles, fun hnot => absurd waits hnot⟩
      | changed addressed undergone => exact absurd addressed hother
    rw [after_concat]
    exact ⟨c', hc', hidles.1, hidles.1.leftAlone, hidles.1.leftAlone.values, hidles.2⟩

/-- two worlds; a column of the first is loaded, and loading that world again is refused -/
def settled : List (RegistryOp Choice) :=
  [.load "overworld" (.ofRegions .table [Region.hourglass]) {},
    .load "nether" (.ofRegions .tree [Region.bar]) {},
    .notify "overworld" (.columnLoaded ⟨0, 0⟩),
    .perform 0 (.drain 10),
    .load "overworld" (.ofRegions .table []) { batchSize := 0 }]

theorem settled_faithful :
    (after settled).names = ["nether", "overworld"] ∧
    after settled = after settled.dropLast ∧
    ((after settled).cache? 0).any (·.isLoaded ⟨0, 0⟩) = true ∧
    (∃ c, (after (settled ++ [.load "overworld" (.ofRegions .tree []) {}])).cache? 0 = some c ∧
      c.knownColumns = 0) ∧
    (∃ c, (after (settled ++ .load "overworld" (.ofRegions .tree []) {} ::
      [.perform 0 (.ofStore (.add Region.bar)), .perform 0 (.drain 10)])).cache? 0 = some c ∧
      ∀ p, c.Answers p (c.regionsAt p).1) ∧
    (after settled).unload "end" 10 = (false, after settled) ∧
    ∃ c c', (after settled).cache? 1 = some c ∧
      (after (settled ++ [.unload "overworld" 10])).cache? 1 = some c' ∧ c.LeftAlone c' := by
  have hvalid : ({} : Settings).validate = .ok () := rfl
  have hold : (after settled).find? "overworld" = some 0 := by decide +kernel
  have hsound : SoundStores settled := by
    intro name store settings hmem
    simp only [settled, List.mem_cons, RegistryOp.load.injEq, reduceCtorEq, List.not_mem_nil, or_false,
      false_or] at hmem
    rcases hmem with ⟨-, rfl, -⟩ | ⟨-, rfl, -⟩ | ⟨-, rfl, -⟩ <;>
      exact Choice.sound_ofRegions (by decide) _
  obtain ⟨-, -, -, -, -, -, -, hreplaced, hanswers, hunknown, huntouched⟩ := faithful_after settled
  refine ⟨by decide +kernel, ?_, by decide +kernel, ?_, ?_, ?_, ?_⟩
  · have hrefused := (faithful_after settled.dropLast).unchanged "overworld" (.ofRegions .table [])
      { batchSize := 0 } (by decide) []
    rw [List.append_nil] at hrefused
    exact hrefused
  · obtain ⟨c, -, hc, hnone⟩ := hreplaced "overworld" (.ofRegions .tree []) {} 0 hvalid hold
    exact ⟨c.dropAll, hc, hnone⟩
  · obtain ⟨c, hc, hexact⟩ := hanswers hsound "overworld" (.ofRegions .tree []) {} 0 hvalid hold
      [.perform 0 (.ofStore (.add Region.bar)), .perform 0 (.drain 10)]
    exact ⟨c, hc, hexact (Or.inl (by simp))⟩
  · exact hunknown "end" 10 (by decide +kernel)
  · obtain ⟨c, hc⟩ : ∃ c, (after settled).cache? 1 = some c :=
      Option.isSome_iff_exists.mp (by decide +kernel)
    obtain ⟨c', hc', -, halone, -⟩ := huntouched (.unload "overworld" 10) 1 c hc fun hother => by
      cases hold.symm.trans hother
    exact ⟨c, c', hc, hc', halone⟩

end Registry
end Precinct
