import Mathlib
import Precinct.Registry
import Precinct.Proofs.Cache.Idle

/-!
# What the functions of a registry do

* `mem_names`, `nodup_names`  the loaded worlds are those with a cache, each once;
* `cache?_commit_self`, `cache?_commit_of_ne`  an operation on one cache: the others idle, if it was
                       waited for;
* `loaded`             what loading a world does, and `load_eq_error_iff` when it is refused;
* `unload_of_unknown`, `find?_unload`, `cache?_unload`, `cache?_unload_of_ne`  what unloading a world
                       does, and the same of several worlds, `unloadAll`.
-/

namespace Precinct
namespace Registry
variable {σ : Type} {r r' : Registry σ} {i j : Nat} {c : Cache σ} {name : String}
  {store : σ} {settings : Settings} {e : SettingsError}

theorem lt_size_of_cache? (h : r.cache? j = some c) : j < r.caches.size :=
  (Array.getElem?_eq_some_iff.mp h).1

theorem cache?_setCache (r : Registry σ) (i j : Nat) (c : Cache σ) :
    (r.setCache i c).cache? j = if i = j ∧ i < r.caches.size then some c else r.cache? j := by
  rw [cache?, setCache, Array.getElem?_setIfInBounds]
  by_cases hi : i = j
  · subst hi
    by_cases hlt : i < r.caches.size
    · simp [hlt]
    · simp [hlt, cache?]
  · simp [hi, cache?]

/-! ## names -/

theorem mem_names : name ∈ r.names ↔ (r.find? name).isSome = true := by
  rw [names, Std.ExtTreeMap.mem_keys, Std.ExtTreeMap.mem_iff_isSome_getElem?]
  rfl

theorem nodup_names (r : Registry σ) : r.names.Nodup := Std.ExtTreeMap.nodup_keys

/-! ## loading -/

theorem load_of_error (h : settings.validate = .error e) :
    r.load name store settings = .error e := by
  rw [load, Cache.make, h]
  rfl

/-- **What loading a world does**, if it is not refused. -/
theorem loaded (h : r.load name store settings = .ok r') :
    settings.validate = .ok () ∧ r'.worlds = r.worlds.insert name r.caches.size ∧
      r'.caches = match r.find? name with
        | some old => (r.caches.push (.ofSettings store settings)).modify old Cache.dropAll
        | none => r.caches.push (.ofSettings store settings) := by
  cases hv : settings.validate with
  | error e =>
    rw [load_of_error hv] at h
    cases h
  | ok u =>
    rw [load, Cache.make, hv] at h
    cases hf : r.find? name with
    | none =>
      rw [hf] at h
      cases h
      exact ⟨rfl, rfl, rfl⟩
    | some old =>
      rw [hf] at h
      cases h
      exact ⟨rfl, rfl, rfl⟩

/-- settings that pass the checks are all that it takes -/
theorem load_eq_error_iff : r.load name store settings = .error e ↔ settings.validate = .error e := by
  constructor
  · intro h
    cases hv : settings.validate with
    | error e' =>
      cases h.symm.trans (load_of_error hv)
      rfl
    | ok u =>
      rw [load, Cache.make, hv] at h
      cases h
  · exact load_of_error

theorem load_of_ok (r : Registry σ) (name : String) (store : σ) (h : settings.validate = .ok ()) :
    ∃ r', r.load name store settings = .ok r' := by
  cases hl : r.load name store settings with
  | ok r' => exact ⟨r', rfl⟩
  | error e =>
    rw [load_eq_error_iff.mp hl] at h
    cases h

theorem find?_load (h : r.load name store settings = .ok r') (other : String) :
    r'.find? other = if name = other then some r.caches.size else r.find? other := by
  obtain ⟨-, hworlds, -⟩ := loaded h
  rw [find?, hworlds, Std.ExtTreeMap.getElem?_insert]
  simp only [Std.LawfulEqCmp.compare_eq_iff_eq]
  rfl

theorem size_load (h : r.load name store settings = .ok r') :
    r'.caches.size = r.caches.size + 1 := by
  obtain ⟨-, -, hcaches⟩ := loaded h
  rw [hcaches]
  cases r.find? name <;> simp

/-- the cache that the world had is told to forget its columns, the others are as they were -/
theorem cache?_load (h : r.load name store settings = .ok r') (hc : r.cache? j = some c) :
    r'.cache? j = some (if r.find? name = some j then c.dropAll else c) := by
  obtain ⟨-, -, hcaches⟩ := loaded h
  have hpush : (r.caches.push (.ofSettings store settings))[j]? = some c := by
    rw [Array.getElem?_push, if_neg (lt_size_of_cache? hc).ne]
    exact hc
  rw [cache?, hcaches]
  cases hf : r.find? name with
  | none => exact hpush
  | some old =>
    dsimp only
    rw [Array.getElem?_modify, hpush]
    by_cases hj : old = j <;> simp [hj]

theorem cache?_load_new (h : r.load name store settings = .ok r')
    (hf : r.find? name ≠ some r.caches.size) :
    r'.cache? r.caches.size = some (.ofSettings store settings) := by
  obtain ⟨-, -, hcaches⟩ := loaded h
  rw [cache?, hcaches]
  cases he : r.find? name with
  | none => exact Array.getElem?_push_size
  | some old =>
    have hne : old ≠ r.caches.size := fun hold => hf (hold ▸ he)
    dsimp only
    rw [Array.getElem?_modify, if_neg hne, Array.getElem?_push_size]

variable [RegionStore σ]

/-! ## operations on one cache -/

theorem size_commit (r : Registry σ) (i : Nat) (waited : Bool) (before after : Cache σ) :
    (r.commit i waited before after).caches.size = r.caches.size := by
  unfold commit setCache passBeside
  cases waited <;> simp

theorem worlds_commit (r : Registry σ) (i : Nat) (waited : Bool) (before after : Cache σ) :
    (r.commit i waited before after).worlds = r.worlds := by
  unfold commit
  cases waited <;> rfl

theorem find?_commit (r : Registry σ) (i : Nat) (waited : Bool) (before after : Cache σ)
    (name : String) : (r.commit i waited before after).find? name = r.find? name := by
  rw [find?, worlds_commit, find?]

theorem cache?_commit_self (hi : i < r.caches.size) (waited : Bool) (before after : Cache σ) :
    (r.commit i waited before after).cache? i = some after := by
  have hset : ∀ r' : Registry σ, r'.caches.size = r.caches.size →
      (r'.setCache i after).cache? i = some after := by
    intro r' hsize
    rw [cache?_setCache, if_pos ⟨rfl, hsize ▸ hi⟩]
  unfold commit
  cases waited with
  | true => exact hset _ Array.size_mapIdx
  | false => exact hset r rfl

/-- the others idle, if it was waited for -/
theorem cache?_commit_of_ne (hj : j ≠ i) (hc : r.cache? j = some c) (waited : Bool)
    (before after : Cache σ) :
    ∃ c', (r.commit i waited before after).cache? j = some c' ∧ c.Idles c' ∧
      (waited = false → c' = c) := by
  unfold commit
  cases waited with
  | true =>
    -- it took as long as the clock of the cache says that was waited for
    refine ⟨_, ?_, c.idles_settle_elapse (after.now - before.now), nofun⟩
    rw [cache?_setCache, if_neg fun h => hj h.1.symm, if_pos rfl]
    show (r.caches.mapIdx _)[j]? = _
    rw [Array.getElem?_mapIdx, show r.caches[j]? = some c from hc, Option.map_some, if_neg hj]
  | false =>
    refine ⟨c, ?_, .refl, fun _ => rfl⟩
    rw [cache?_setCache, if_neg fun h => hj h.1.symm, if_neg Bool.false_ne_true]
    exact hc

/-! ## unloading -/

theorem unload_of_unknown (h : r.find? name = none) (ms : Nat) : r.unload name ms = (false, r) := by
  rw [unload, h]

theorem unload_of_known (hf : r.find? name = some i) (hc : r.cache? i = some c) (ms : Nat) :
    r.unload name ms = ((c.dropAllAndWait ms).1,
      ({ r with worlds := r.worlds.erase name } : Registry σ).commit i
        ((CacheOp.dropAllAndWait ms).hasToWait c) c (c.dropAllAndWait ms).2) := by
  have hc' : ({ r with worlds := r.worlds.erase name } : Registry σ).cache? i = some c := hc
  rw [unload, hf]
  dsimp only
  rw [hc']

theorem find?_unload (r : Registry σ) (name : String) (ms : Nat) (other : String) :
    (r.unload name ms).2.find? other = if name = other then none else r.find? other := by
  have herased : ({ r with worlds := r.worlds.erase name } : Registry σ).find? other =
      if name = other then none else r.find? other := by
    rw [find?, Std.ExtTreeMap.getElem?_erase]
    simp only [Std.LawfulEqCmp.compare_eq_iff_eq]
    rfl
  rw [← herased]
  cases hf : r.find? name with
  | none =>
    rw [unload_of_unknown hf, herased]
    split
    · rename_i he
      rw [← he, hf]
    · rfl
  | some i =>
    cases hc : r.cache? i with
    | none =>
      have hc' : ({ r with worlds := r.worlds.erase name } : Registry σ).cache? i = none := hc
      rw [unload, hf]
      dsimp only
      rw [hc']
    | some c =>
      rw [unload_of_known hf hc]
      exact find?_commit _ _ _ _ _ _

theorem size_unload (r : Registry σ) (name : String) (ms : Nat) :
    (r.unload name ms).2.caches.size = r.caches.size := by
  unfold unload
  split
  · rfl
  · dsimp only
    split
    · rfl
    · exact size_commit _ _ _ _ _

/-- the caches of other worlds idle while it is waited for the surveys of one -/
theorem cache?_unload_of_ne (hf : r.find? name ≠ some j) (hc : r.cache? j = some c) (ms : Nat) :
    ∃ c', (r.unload name ms).2.cache? j = some c' ∧ c.Idles c' ∧ (ms = 0 → c' = c) := by
  cases hf' : r.find? name with
  | none =>
    rw [unload_of_unknown hf']
    exact ⟨c, hc, .refl, fun _ => rfl⟩
  | some i =>
    cases hi : r.cache? i with
    | none =>
      have hi' : ({ r with worlds := r.worlds.erase name } : Registry σ).cache? i = none := hi
      rw [unload, hf']
      dsimp only
      rw [hi']
      exact ⟨c, hc, .refl, fun _ => rfl⟩
    | some d =>
      have hne : j ≠ i := fun he => hf (he ▸ hf')
      rw [unload_of_known hf' hi]
      obtain ⟨c', hc', hidles, hsame⟩ := cache?_commit_of_ne hne
        (r := { r with worlds := r.worlds.erase name }) hc
        ((CacheOp.dropAllAndWait ms).hasToWait d) d (d.dropAllAndWait ms).2
      refine ⟨c', hc', hidles, fun hms => hsame ?_⟩
      rw [hms]
      rfl

/-- unloading a world is a wait on its cache, whatever the others do meanwhile -/
theorem cache?_unload (hf : r.find? name = some i) (hc : r.cache? i = some c) (ms : Nat) :
    (r.unload name ms).1 = (c.dropAllAndWait ms).1 ∧
      (r.unload name ms).2.cache? i = some (c.dropAllAndWait ms).2 := by
  rw [unload_of_known hf hc]
  refine ⟨rfl, ?_⟩
  exact cache?_commit_self (r := { r with worlds := r.worlds.erase name }) (lt_size_of_cache? hc) _ _ _

theorem undergone_unload (r : Registry σ) (hc : r.cache? j = some c) (name : String) (ms : Nat)
    {behind : Prop} : ∃ c', (r.unload name ms).2.cache? j = some c' ∧ c.Undergone behind c' := by
  by_cases hf : r.find? name = some j
  · exact ⟨_, (cache?_unload hf hc ms).2, c.undergone_dropAllAndWait ms⟩
  · obtain ⟨c', hc', hidles, -⟩ := cache?_unload_of_ne hf hc ms
    exact ⟨c', hc', hidles.undergone⟩

theorem find?_unloadAll (r : Registry σ) (ms : Nat) (names : List String) (other : String) :
    (r.unloadAll ms names).2.find? other = if other ∈ names then none else r.find? other := by
  induction names generalizing r with
  | nil => rfl
  | cons name rest ih =>
    show ((r.unload name ms).2.unloadAll ms rest).2.find? other = _
    rw [ih, find?_unload]
    by_cases hrest : other ∈ rest
    · simp [hrest]
    · by_cases he : name = other
      · simp [he]
      · simp [hrest, he, Ne.symm he]

theorem size_unloadAll (r : Registry σ) (ms : Nat) (names : List String) :
    (r.unloadAll ms names).2.caches.size = r.caches.size := by
  induction names generalizing r with
  | nil => rfl
  | cons name rest ih => exact (ih (r.unload name ms).2).trans (r.size_unload name ms)

theorem cache?_unloadAll_of_ne (names : List String) (hf : ∀ name ∈ names, r.find? name ≠ some j)
    (hc : r.cache? j = some c) (ms : Nat) :
    ∃ c', (r.unloadAll ms names).2.cache? j = some c' ∧ c.Idles c' ∧ (ms = 0 → c' = c) := by
  induction names generalizing r c with
  | nil => exact ⟨c, hc, .refl, fun _ => rfl⟩
  | cons name rest ih =>
    obtain ⟨d, hd, hidles, hsame⟩ := cache?_unload_of_ne (hf name List.mem_cons_self) hc ms
    have hrest : ∀ other ∈ rest, (r.unload name ms).2.find? other ≠ some j := by
      intro other ho
      rw [find?_unload]
      split
      · exact nofun
      · exact hf other (List.mem_cons_of_mem name ho)
    obtain ⟨c', hc', hidles', hsame'⟩ := ih hrest hd
    exact ⟨c', hc', hidles.trans hidles', fun hms => (hsame' hms).trans (hsame hms)⟩

theorem undergone_unloadAll (names : List String) (hc : r.cache? j = some c) (ms : Nat)
    {behind : Prop} :
    ∃ c', (r.unloadAll ms names).2.cache? j = some c' ∧ c.Undergone behind c' := by
  induction names generalizing r c with
  | nil => exact ⟨c, hc, .refl⟩
  | cons name rest ih =>
    obtain ⟨d, hd, hundergone⟩ := r.undergone_unload hc name ms
    obtain ⟨c', hc', hundergone'⟩ := ih hd
    exact ⟨c', hc', hundergone.trans hundergone'⟩

/-! ## events, and what is done by number -/

omit [RegionStore σ] in
theorem notify_eq (hf : r.find? name = some i) (hc : r.cache? i = some c) (event : WorldEvent) :
    r.notify name event = some ((c.hint event.hint).1.map fun () => (c.hint event.hint).2.knownColumns,
      r.setCache i (c.hint event.hint).2) := by
  rw [notify, hf, Option.bind_some, hc]
  rfl

theorem perform_eq (hc : r.cache? i = some c) (op : CacheOp) :
    r.perform i op = some ((op.perform c (r.shelf i)).1,
      { r.commit i (op.hasToWait c) c (op.perform c (r.shelf i)).2.1 with
        shelves := (r.commit i (op.hasToWait c) c (op.perform c (r.shelf i)).2.1).shelves.insert i
          (op.perform c (r.shelf i)).2.2 }) := by
  rw [perform, hc]
  rfl

end Registry
end Precinct
